import Lexaire.Sensor.Threads

/-! From the streams to the consumer. Whatever the interleaving, the buffers are those of a
session whose events are the sections in the order in which the lock was taken, and the
framesets of that session are handed out one by one. -/
namespace Lexaire.Sensor
open Atomic Transition Monitor

variable {Rgb Depth : Type} (py : Numbers) (bufferSize : Nat)

/-! ## Sections in order -/

abbrev SectionMachine (Rgb Depth : Type) :=
  Coarse Party (Job Rgb Depth) (@BufferOp.Answer Rgb Depth) (@OutsideOp.Answer Rgb Depth) PyError
    (SensorSubscriber Rgb Depth) (Outside Rgb Depth)

abbrev SectionLabel (Rgb Depth : Type) :=
  CoarseLabel Party (Job Rgb Depth) (@OutsideOp.Answer Rgb Depth) (Traffic Rgb Depth)

abbrev SectionHistory (Rgb Depth : Type) := List (SectionMachine Rgb Depth × SectionLabel Rgb Depth)

def entering? : SectionMachine Rgb Depth × SectionLabel Rgb Depth → Option (Event Rgb Depth)
  | (_, .enters _ job) => job.event?
  | _ => none

def beginning? : SectionMachine Rgb Depth × SectionLabel Rgb Depth → Option (Event Rgb Depth)
  | (_, .begins _ job) => job.event?
  | _ => none

def handing? : SectionMachine Rgb Depth × SectionLabel Rgb Depth → Option (Frameset Rgb Depth)
  | (_, .frees _ (.begin fs) _) => some fs
  | _ => none

/-- Where a thread is between two of its sections, when the matcher has still `pending` to
hand out. -/
inductive Place (alive : Bool) (pending : List (Frameset Rgb Depth)) :
    Party → Option (Job Rgb Depth × ThreadCode Rgb Depth) → Prop where
  | idle {i : Party} (settled : i = .matcher → alive = true ∧ pending = []) :
      Place alive pending i none
  | polls {job : Job Rgb Depth} (settled : job.party = .matcher → alive = true ∧ pending = []) :
      Place alive pending job.party (some (job, job.code py))
  | rgb {header : Json} {image : Option Rgb} {seq : Int} {frame : Json × Rgb}
      (decoded : decodeFrame py header image = some (seq, frame)) :
      Place alive pending .rgb (some (.rgb header image, store (.setRgb seq frame) .trimRgb))
  | depth {header : Json} {image : Option Depth} {seq : Int} {frame : Json × Depth}
      (decoded : decodeFrame py header image = some (seq, frame)) :
      Place alive pending .depth (some (.depth header image, store (.setDepth seq frame) .trimDepth))
  | stops : Place alive pending .stopper (some (.stop, .step .acquire fun _ => .step .notifyAll fun _ =>
      .step .release fun _ => .done ()))
  | ended (job : Job Rgb Depth) (other : job.party ≠ .matcher) :
      Place alive pending job.party (some (job, .done ()))
  | ready (living : alive = true) (none_left : pending = []) :
      Place alive pending .matcher (some (.round, runMatcherRound py))
  | waits (living : alive = true) (none_left : pending = []) :
      Place alive pending .matcher (some (.round, matchOrWait py []))
  | hands (living : alive = true) : Place alive pending .matcher (some (.round, handOut pending))
  | between (living : alive = true) : Place alive pending .matcher
      (some (.round, .step (.free .finish) fun _ => handOut pending))
  | dead {e : PyError} (dead : alive = false) (none_left : pending = []) :
      Place alive pending .matcher (some (.round, .raise e))

section
variable {py bufferSize} {alive alive' : Bool} {pending pending' : List (Frameset Rgb Depth)}

/-- The other threads do not see what the matcher has to hand out. -/
theorem Place.other {i : Party} {thread : Option (Job Rgb Depth × ThreadCode Rgb Depth)}
    (place : Place py alive pending i thread) (other : i ≠ .matcher) :
    Place py alive' pending' i thread := by
  cases place with
  | idle => exact .idle fun same => absurd same other
  | polls => exact .polls fun same => absurd same other
  | rgb decoded => exact .rgb decoded
  | depth decoded => exact .depth decoded
  | stops => exact .stops
  | ended other => exact .ended _ other
  | ready | waits | hands | between | dead => exact absurd rfl other

theorem places_update {thread : Party → Option (Job Rgb Depth × ThreadCode Rgb Depth)} {i : Party}
    {job : Option (Job Rgb Depth × ThreadCode Rgb Depth)}
    (places : ∀ j, Place py alive pending j (thread j)) (mine : Place py alive' pending' i job)
    (same : i ≠ .matcher → alive' = alive ∧ pending' = pending) (j : Party) :
    Place py alive' pending' j (Function.update thread i job j) := by
  by_cases here : j = i
  · subst here
    rwa [Function.update_self]
  · rw [Function.update_of_ne here]
    by_cases matcher : i = .matcher
    · exact (places j).other fun other => here (other.trans matcher.symm)
    · obtain ⟨rfl, rfl⟩ := same matcher
      exact places j

end

/-- The frame that the rgb thread has decoded and not stored. -/
def rgbInHand : Option (Job Rgb Depth × ThreadCode Rgb Depth) → List (Int × Json × Rgb)
  | some (.rgb header image, .step _ _) => (decodeFrame py header image).toList
  | _ => []

def depthInHand : Option (Job Rgb Depth × ThreadCode Rgb Depth) → List (Int × Json × Depth)
  | some (.depth header image, .step _ _) => (decodeFrame py header image).toList
  | _ => []

/-- The session whose events are the sections in the order in which they were entered. -/
def sectionSession (path : SectionHistory Rgb Depth) : Session Rgb Depth :=
  Session.run py bufferSize (path.filterMap entering?)

structure Linear (path : SectionHistory Rgb Depth) (c : SectionMachine Rgb Depth) : Prop where
  buffers : c.shared = (sectionSession py bufferSize path).subscriber
  places : ∃ pending,
    (∀ i, Place py (sectionSession py bufferSize path).alive pending i (c.thread i)) ∧
      path.filterMap handing? ++ pending = (sectionSession py bufferSize path).emitted
  rgb : (rgbFrames py (path.filterMap entering?) ++ rgbInHand py (c.thread .rgb)).Sublist
    (rgbFrames py (path.filterMap beginning?))
  depth : (depthFrames py (path.filterMap entering?) ++ depthInHand py (c.thread .depth)).Sublist
    (depthFrames py (path.filterMap beginning?))

section
variable {py bufferSize} {path : SectionHistory Rgb Depth} {c c' : SectionMachine Rgb Depth}
  {e : SectionLabel Rgb Depth} {alive : Bool} {pending : List (Frameset Rgb Depth)} {i : Party}
  {job : Job Rgb Depth}

/-! ## What a step does -/

theorem Place.done (place : Place py alive pending i (some (job, .done ()))) :
    i = .matcher → alive = true ∧ pending = [] := by
  generalize same : some (job, Program.done ()) = thread at place
  cases place with
  | ended _ other => exact fun matcher => absurd matcher other
  | hands living =>
    cases pending with
    | nil => exact fun _ => ⟨living, rfl⟩
    | cons fs rest => cases same
  | @polls job' => cases job' <;> cases same
  | _ => cases same

/-- The sections of the threads. -/
inductive Entering (py : Numbers) (alive : Bool) (pending : List (Frameset Rgb Depth)) :
    Party → Job Rgb Depth → ThreadCode Rgb Depth → Prop where
  | rgb {header : Json} {image : Option Rgb} {seq : Int} {frame : Json × Rgb}
      (decoded : decodeFrame py header image = some (seq, frame)) :
      Entering py alive pending .rgb (.rgb header image) (.step (.guarded (.setRgb seq frame)) fun _ =>
        .step (.guarded .trimRgb) fun _ => .step .notify fun _ => .step .release fun _ => .done ())
  | depth {header : Json} {image : Option Depth} {seq : Int} {frame : Json × Depth}
      (decoded : decodeFrame py header image = some (seq, frame)) :
      Entering py alive pending .depth (.depth header image)
        (.step (.guarded (.setDepth seq frame)) fun _ => .step (.guarded .trimDepth) fun _ =>
          .step .notify fun _ => .step .release fun _ => .done ())
  | stop : Entering py alive pending .stopper .stop
      (.step .notifyAll fun _ => .step .release fun _ => .done ())
  | first (living : alive = true) (none_left : pending = []) : Entering py alive pending .matcher .round
      (under (tryMatchLocked py) (matchOrWait py) raiseWith)
  | second (living : alive = true) (none_left : pending = []) : Entering py alive pending .matcher .round
      (under (tryMatchLocked py) leaveWith raiseWith)

theorem Place.enters {call : Call (BufferOp Rgb Depth) (OutsideOp Rgb Depth)}
    {next : Call.Answer BufferOp.Answer OutsideOp.Answer call → ThreadCode Rgb Depth}
    (place : Place py alive pending i (some (job, .step call next))) (enters : call.enters = true)
    (r : Call.Answer BufferOp.Answer OutsideOp.Answer call) :
    Entering py alive pending i job (next r) := by
  generalize same : some (job, Program.step call next) = thread at place
  cases place with
  | rgb decoded =>
    cases same
    exact .rgb decoded
  | depth decoded =>
    cases same
    exact .depth decoded
  | stops =>
    cases same
    exact .stop
  | ready living none_left =>
    cases same
    exact .first living none_left
  | waits living none_left =>
    cases same
    exact .second living none_left
  | @polls job' => cases job' <;> cases same <;> cases enters
  | hands living =>
    cases pending with
    | nil => cases same
    | cons fs rest =>
      cases same
      cases enters
  | between =>
    cases same
    cases enters
  | _ => cases same

/-- A pass of the matcher, however it goes on. -/
theorem pass_step {session : Session Rgb Depth} {f : List (Frameset Rgb Depth) → ThreadCode Rgb Depth}
    (living : session.alive = true) (goes : ∀ matched s,
      (leave (BufferOp.run bufferSize) (f matched) s).2 = s ∧ Place py true matched .matcher
        (some (.round, settle (leave (BufferOp.run bufferSize) (f matched) s).1))) :
    ∃ session' pending', session' = session.step py bufferSize .pass ∧
      (leave (BufferOp.run bufferSize) (under (tryMatchLocked py) f raiseWith) session.subscriber).2 =
        session'.subscriber ∧
      Place py session'.alive pending' .matcher (some (.round,
        settle (leave (BufferOp.run bufferSize) (under (tryMatchLocked py) f raiseWith)
          session.subscriber).1)) ∧
      session.emitted ++ pending' = session'.emitted := by
  obtain ⟨result, state⟩ := @run_tryMatchLocked _ _ py bufferSize session.subscriber
  rw [leave_under, Session.step, if_pos living]
  generalize (tryMatchLocked py).run (BufferOp.run bufferSize) session.subscriber = ran at result state ⊢
  generalize session.subscriber.tryMatch py = tried at result state ⊢
  obtain ⟨_, s', outcome⟩ := ran
  obtain ⟨matched, s⟩ := tried
  obtain rfl : outcome = matched := result
  obtain rfl : s' = s := state
  cases outcome with
  | ok matched =>
    obtain ⟨kept, place⟩ := goes matched s'
    exact ⟨_, matched, rfl, kept, living ▸ place, rfl⟩
  | error e => exact ⟨_, [], rfl, rfl, .dead rfl rfl, List.append_nil _⟩

/-- A section is an event of the session. -/
theorem Entering.step (bufferSize : Nat) {session : Session Rgb Depth} {p : ThreadCode Rgb Depth}
    (entering : Entering py session.alive pending i job p) :
    ∃ session' pending', session' = job.event?.toList.foldl (Session.step py bufferSize) session ∧
      (leave (BufferOp.run bufferSize) p session.subscriber).2 = session'.subscriber ∧
      Place py session'.alive pending' i
        (some (job, settle (leave (BufferOp.run bufferSize) p session.subscriber).1)) ∧
      (i ≠ .matcher → session'.alive = session.alive ∧ pending' = pending) ∧
      ∀ handed, handed ++ pending = session.emitted → handed ++ pending' = session'.emitted := by
  cases entering with
  | @rgb header image seq frame decoded =>
    refine ⟨_, pending, rfl, ?_, ?_, fun _ => ⟨rfl, rfl⟩, fun handed same => same⟩
    · simp [Job.event?, Session.step, SensorSubscriber.runRgb, decoded, BufferOp.run]
    · exact Place.ended (.rgb header image) (by simp [Job.party])
  | @depth header image seq frame decoded =>
    refine ⟨_, pending, rfl, ?_, ?_, fun _ => ⟨rfl, rfl⟩, fun handed same => same⟩
    · simp [Job.event?, Session.step, SensorSubscriber.runDepth, decoded, BufferOp.run]
    · exact Place.ended (.depth header image) (by simp [Job.party])
  | stop =>
    refine ⟨_, pending, rfl, rfl, ?_, fun _ => ⟨rfl, rfl⟩, fun handed same => same⟩
    exact Place.ended .stop (by simp [Job.party])
  | first living none_left =>
    obtain ⟨session', pending', same, left, place, emitted⟩ :=
      @pass_step _ _ py bufferSize _ (matchOrWait py) living fun matched s => by
        cases matched with
        | nil => exact ⟨rfl, .waits rfl rfl⟩
        | cons fs rest => exact ⟨rfl, .hands rfl⟩
    refine ⟨session', pending', same, left, place, fun other => absurd rfl other, ?_⟩
    intro handed all
    rw [← emitted, ← all, none_left, List.append_nil]
  | second living none_left =>
    obtain ⟨session', pending', same, left, place, emitted⟩ :=
      @pass_step _ _ py bufferSize _ leaveWith living fun matched s => ⟨rfl, .hands rfl⟩
    refine ⟨session', pending', same, left, place, fun other => absurd rfl other, ?_⟩
    intro handed all
    rw [← emitted, ← all, none_left, List.append_nil]

/-- A free step of a thread, and what the matcher has then to hand out. -/
theorem Place.frees {op : OutsideOp Rgb Depth} {next : op.Answer → ThreadCode Rgb Depth}
    {p : ThreadCode Rgb Depth} (r : op.Answer) (place : Place py alive pending i (some (job, p)))
    (at_call : p = .step (.free op) next) :
    ∃ pending', Place py alive pending' i (some (job, next r)) ∧
      (i ≠ .matcher → pending' = pending) ∧
      pending = (handing? (c, .frees i op r)).toList ++ pending' := by
  subst at_call
  generalize same : some (job, Program.step _ _) = thread at place
  cases place with
  | @polls job' settled =>
    cases job' with
    | stop =>
      cases same
      exact ⟨pending, .stops, fun _ => rfl, rfl⟩
    | round =>
      cases same
      obtain ⟨living, rfl⟩ := settled rfl
      refine ⟨[], ?_, fun _ => rfl, rfl⟩
      cases r with
      | true => exact .hands living
      | false => exact .ready living rfl
    | rgb header image =>
      cases same
      refine ⟨pending, ?_, fun _ => rfl, rfl⟩
      have ended : Place py alive pending .rgb (some (.rgb header image, .done ())) :=
        .ended (.rgb header image) (by simp [Job.party])
      cases r with
      | true => exact ended
      | false =>
        simp only [runRgbMessage]
        split
        · next decoded => exact .rgb decoded
        · exact ended
    | depth header image =>
      cases same
      refine ⟨pending, ?_, fun _ => rfl, rfl⟩
      have ended : Place py alive pending .depth (some (.depth header image, .done ())) :=
        .ended (.depth header image) (by simp [Job.party])
      cases r with
      | true => exact ended
      | false =>
        simp only [runDepthMessage]
        split
        · next decoded => exact .depth decoded
        · exact ended
  | hands living =>
    cases pending with
    | nil => cases same
    | cons fs rest =>
      cases same
      exact ⟨rest, .between living, fun other => absurd rfl other, rfl⟩
  | between living =>
    cases same
    exact ⟨pending, .hands living, fun _ => rfl, rfl⟩
  | _ => cases same

/-! ## The streams -/

/-- Frames are stored in the order in which they were received, none twice. -/
structure Passes (py : Numbers) (p : SectionMachine Rgb Depth × SectionLabel Rgb Depth)
    (c' : SectionMachine Rgb Depth) : Prop where
  rgb : (rgbFrames py (entering? p).toList ++ rgbInHand py (c'.thread .rgb)).Sublist
    (rgbInHand py (p.1.thread .rgb) ++ rgbFrames py (beginning? p).toList)
  depth : (depthFrames py (entering? p).toList ++ depthInHand py (c'.thread .depth)).Sublist
    (depthInHand py (p.1.thread .depth) ++ depthFrames py (beginning? p).toList)

theorem Linear.snoc (linear : Linear py bufferSize path c) (passes : Passes py (c, e) c')
    (buffers : c'.shared = (sectionSession py bufferSize (path ++ [(c, e)])).subscriber)
    (places : ∃ pending,
      (∀ i, Place py (sectionSession py bufferSize (path ++ [(c, e)])).alive pending i (c'.thread i)) ∧
        (path ++ [(c, e)]).filterMap handing? ++ pending =
          (sectionSession py bufferSize (path ++ [(c, e)])).emitted) :
    Linear py bufferSize (path ++ [(c, e)]) c' := by
  refine ⟨buffers, places, ?_, ?_⟩
  · rw [filterMap_snoc, filterMap_snoc, rgbFrames_append, rgbFrames_append, List.append_assoc]
    refine ((List.Sublist.refl _).append passes.rgb).trans ?_
    rw [← List.append_assoc]
    exact linear.rgb.append (List.Sublist.refl _)
  · rw [filterMap_snoc, filterMap_snoc, depthFrames_append, depthFrames_append, List.append_assoc]
    refine ((List.Sublist.refl _).append passes.depth).trans ?_
    rw [← List.append_assoc]
    exact linear.depth.append (List.Sublist.refl _)

theorem sectionSession_snoc (p : SectionMachine Rgb Depth × SectionLabel Rgb Depth) :
    sectionSession py bufferSize (path ++ [p]) =
      (entering? p).toList.foldl (Session.step py bufferSize) (sectionSession py bufferSize path) := by
  rw [sectionSession, filterMap_snoc, Session.run, List.foldl_append]
  rfl

/-- A step that enters no section. -/
theorem Linear.keep (linear : Linear py bufferSize path c) (passes : Passes py (c, e) c')
    (outside : entering? (c, e) = none) (shared : c'.shared = c.shared)
    (places : ∀ alive pending, (∀ i, Place py alive pending i (c.thread i)) → ∃ pending',
      (∀ i, Place py alive pending' i (c'.thread i)) ∧
        pending = (handing? (c, e)).toList ++ pending') :
    Linear py bufferSize (path ++ [(c, e)]) c' := by
  have same : sectionSession py bufferSize (path ++ [(c, e)]) = sectionSession py bufferSize path := by
    rw [sectionSession_snoc, outside]
    rfl
  obtain ⟨pending, before, emitted⟩ := linear.places
  obtain ⟨pending', after, split⟩ := places _ pending before
  refine linear.snoc passes ?_ ⟨pending', ?_, ?_⟩
  · rw [same, shared, linear.buffers]
  · rw [same]
    exact after
  · rw [same, filterMap_snoc, List.append_assoc, ← split, emitted]

@[simp] theorem rgbFrames_nil : rgbFrames py ([] : List (Event Rgb Depth)) = [] := rfl

@[simp] theorem depthFrames_nil : depthFrames py ([] : List (Event Rgb Depth)) = [] := rfl

@[simp] theorem rgbFrames_rgb (header : Json) (image : Option Rgb) :
    rgbFrames py [(.rgb header image : Event Rgb Depth)] = (decodeFrame py header image).toList := by
  cases decoded : decodeFrame py header image <;> simp [rgbFrames, rgbFrame?, decoded]

@[simp] theorem rgbFrames_depth (header : Json) (image : Option Depth) :
    rgbFrames py [(.depth header image : Event Rgb Depth)] = [] := rfl

@[simp] theorem rgbFrames_pass : rgbFrames py [(.pass : Event Rgb Depth)] = [] := rfl

@[simp] theorem depthFrames_depth (header : Json) (image : Option Depth) :
    depthFrames py [(.depth header image : Event Rgb Depth)] = (decodeFrame py header image).toList := by
  cases decoded : decodeFrame py header image <;> simp [depthFrames, depthFrame?, decoded]

@[simp] theorem depthFrames_rgb (header : Json) (image : Option Rgb) :
    depthFrames py [(.rgb header image : Event Rgb Depth)] = [] := rfl

@[simp] theorem depthFrames_pass : depthFrames py [(.pass : Event Rgb Depth)] = [] := rfl

theorem passes_begins (idle : c.thread job.party = none) :
    Passes py (c, .begins job.party job)
      { c with thread := Function.update c.thread job.party (some (job, job.code py)) } := by
  constructor <;> cases job <;>
    simp_all [entering?, beginning?, rgbInHand, depthInHand, Job.party, Job.code, unlessStopped,
      Job.event?]

/-- A step that receives nothing and enters no section. -/
theorem passes_aside {new : Option (Job Rgb Depth × ThreadCode Rgb Depth)} {outside : Outside Rgb Depth}
    (elsewhere : entering? (c, e) = none) (nothing : beginning? (c, e) = none)
    (rgb : (rgbInHand py new).Sublist (rgbInHand py (c.thread i)))
    (depth : (depthInHand py new).Sublist (depthInHand py (c.thread i))) :
    Passes py (c, e) { c with thread := Function.update c.thread i new, outside } := by
  constructor <;> simp only [elsewhere, nothing, Option.toList_none, rgbFrames_nil, depthFrames_nil,
    List.nil_append, List.append_nil]
  · by_cases here : i = .rgb
    · subst here
      rwa [Function.update_self]
    · rw [Function.update_of_ne (Ne.symm here)]
  · by_cases here : i = .depth
    · subst here
      rwa [Function.update_self]
    · rw [Function.update_of_ne (Ne.symm here)]

theorem rgbInHand_step {p q : ThreadCode Rgb Depth} (more : ∃ call next, q = .step call next) :
    (rgbInHand py (some (job, p))).Sublist (rgbInHand py (some (job, q))) := by
  obtain ⟨call, next, rfl⟩ := more
  cases job <;> cases p <;> simp [rgbInHand]

theorem depthInHand_step {p q : ThreadCode Rgb Depth} (more : ∃ call next, q = .step call next) :
    (depthInHand py (some (job, p))).Sublist (depthInHand py (some (job, q))) := by
  obtain ⟨call, next, rfl⟩ := more
  cases job <;> cases p <;> simp [depthInHand]

theorem passes_enters {call : Call (BufferOp Rgb Depth) (OutsideOp Rgb Depth)}
    {next : Call.Answer BufferOp.Answer OutsideOp.Answer call → ThreadCode Rgb Depth}
    {p : ThreadCode Rgb Depth} {shared : SensorSubscriber Rgb Depth}
    (at_call : c.thread i = some (job, .step call next))
    (entering : Entering py alive pending i job p) (s : SensorSubscriber Rgb Depth) :
    Passes py (c, .enters i job) { c with
      thread := Function.update c.thread i
        (some (job, settle (leave (BufferOp.run bufferSize) p s).1)), shared } := by
  cases entering with
  | rgb decoded => constructor <;> simp [entering?, beginning?, Job.event?, rgbInHand, at_call]
  | depth decoded => constructor <;> simp [entering?, beginning?, Job.event?, depthInHand, at_call]
  | stop => constructor <;> simp [entering?, beginning?, Job.event?]
  | first => constructor <;> simp [entering?, beginning?, Job.event?]
  | second => constructor <;> simp [entering?, beginning?, Job.event?]

theorem Place.settled (place : Place py alive pending i none) :
    i = .matcher → alive = true ∧ pending = [] := by
  cases place with
  | idle settled => exact settled

theorem linear_next (linear : Linear py bufferSize path c)
    (moved : Coarse.Next (threads py bufferSize) c e c') : Linear py bufferSize (path ++ [(c, e)]) c' := by
  cases moved with
  | @begins i job idle may =>
    obtain rfl : job.party = i := may
    refine linear.keep (passes_begins idle) rfl rfl fun alive pending places => ?_
    have settled := (idle ▸ places job.party).settled
    exact ⟨pending, places_update places (.polls settled) fun _ => ⟨rfl, rfl⟩, rfl⟩
  | @finishes i job ended =>
    refine linear.keep (passes_aside rfl rfl (List.nil_sublist _) (List.nil_sublist _)) rfl rfl
      fun alive pending places => ?_
    have settled := (ended ▸ places i).done
    exact ⟨pending, places_update places (.idle settled) fun _ => ⟨rfl, rfl⟩, rfl⟩
  | @enters i job call next p at_call enters resumed =>
    obtain ⟨r, rfl⟩ := resumed
    obtain ⟨pending, places, emitted⟩ := linear.places
    have entering := (at_call ▸ places i).enters enters r
    obtain ⟨session', pending', same, left, place, others, handed⟩ := entering.step bufferSize
    have now : sectionSession py bufferSize (path ++ [(c, .enters i job)]) = session' := by
      rw [sectionSession_snoc, same]
      rfl
    refine linear.snoc (passes_enters at_call entering _) ?_ ⟨pending', ?_, ?_⟩
    · rw [now, ← left, ← linear.buffers]
      rfl
    · rw [now, linear.buffers]
      exact places_update places place others
    · rw [now, filterMap_snoc]
      exact handed _ (by simpa [handing?] using emitted)
  | @frees i job op next r outside at_call effect =>
    refine linear.keep (passes_aside rfl rfl ?_ ?_) rfl rfl fun alive pending places => ?_
    · rw [at_call]
      exact rgbInHand_step ⟨_, _, rfl⟩
    · rw [at_call]
      exact depthInHand_step ⟨_, _, rfl⟩
    · obtain ⟨pending', place, others, split⟩ := (at_call ▸ places i).frees (c := c) r rfl
      exact ⟨pending', places_update places place fun other => ⟨rfl, others other⟩, split⟩
  | @drifts d outside drifted =>
    refine linear.keep ⟨?_, ?_⟩ rfl rfl fun alive pending places => ⟨pending, places, rfl⟩
    · simp [entering?, beginning?]
    · simp [entering?, beginning?]

theorem linear_run {c : SectionMachine Rgb Depth}
    (run : Run (Coarse.Next (threads py bufferSize)) { shared := {}, outside := {} } path c) :
    Linear py bufferSize path c := by
  refine Run.invariant_history (fun _ _ => True) (fun linear _ moved => linear_next linear moved) run ?_
    fun _ _ _ _ => trivial
  refine ⟨rfl, ⟨[], fun i => .idle fun _ => ⟨rfl, rfl⟩, rfl⟩, ?_, ?_⟩
  · exact List.Sublist.refl []
  · exact List.Sublist.refl []

end

/-! ## Interleavings -/

abbrev SensorHistory (Rgb Depth : Type) := List (SensorMachine Rgb Depth × SensorLabel Rgb Depth)

/-- A message or a round as its thread comes to it. -/
def begun? : SensorMachine Rgb Depth × SensorLabel Rgb Depth → Option (Event Rgb Depth)
  | (_, .begins _ job) => job.event?
  | _ => none

/-- The same as its section takes the lock; the matcher takes it again after a wait. -/
def entered? : SensorMachine Rgb Depth × SensorLabel Rgb Depth → Option (Event Rgb Depth)
  | (_, .acquires _ job) | (_, .resumes _ job) => job.event?
  | _ => none

def handedOut? : SensorMachine Rgb Depth × SensorLabel Rgb Depth → Option (Frameset Rgb Depth)
  | (_, .frees _ (.begin fs) _) => some fs
  | _ => none

/-- What the consumer takes out of the queue. -/
def consumed? : SensorMachine Rgb Depth × SensorLabel Rgb Depth → Option (Frameset Rgb Depth)
  | (_, .drifts (.gets fs)) => some fs
  | _ => none

/-- The step as the output queue sees it. -/
def queued? : SensorMachine Rgb Depth × SensorLabel Rgb Depth →
    Option (Output (Frameset Rgb Depth) × OutputLabel (Frameset Rgb Depth))
  | (m, .frees _ (.begin fs) _) => some (m.outside.output, .begins fs)
  | (m, .frees _ .finish _) => some (m.outside.output, .finishes)
  | (m, .drifts traffic) => some (m.outside.output, traffic.label)
  | _ => none

section
variable {py bufferSize} {path : SensorHistory Rgb Depth} {m : SensorMachine Rgb Depth}

theorem codes_disciplined (i : Party) (job : Job Rgb Depth) (_ : (threads py bufferSize).begins i job) :
    Disciplined false ((threads py bufferSize).code job) :=
  disciplined_code job

theorem codes_attentive (i : Party) (job : Job Rgb Depth) (may : (threads py bufferSize).begins i job) :
    Disciplined false ((threads py bufferSize).code job) ∧
      Attentive (threads py bufferSize).run Unmatched (decide (i = .matcher))
        ((threads py bufferSize).code job) := by
  obtain rfl : job.party = i := may
  exact ⟨disciplined_code job, attends_code job⟩

theorem unmatched_start : Unmatched ({} : SensorSubscriber Rgb Depth) := by
  simp [Unmatched, SensorSubscriber.common, Dict.keys]

theorem coarsen_begun : (coarsen (threads py bufferSize) path).filterMap beginning? =
    path.filterMap begun? := by
  rw [coarsen, List.filterMap_filterMap]
  congr
  funext p
  obtain ⟨m, e⟩ := p
  cases e <;> rfl

theorem coarsen_entered : (coarsen (threads py bufferSize) path).filterMap entering? =
    path.filterMap entered? := by
  rw [coarsen, List.filterMap_filterMap]
  congr
  funext p
  obtain ⟨m, e⟩ := p
  cases e <;> rfl

theorem coarsen_handed : (coarsen (threads py bufferSize) path).filterMap handing? =
    path.filterMap handedOut? := by
  rw [coarsen, List.filterMap_filterMap]
  congr
  funext p
  obtain ⟨m, e⟩ := p
  cases e with
  | frees i op r => cases op <;> rfl
  | _ => rfl

theorem sections_linear (run : Run (Next (threads py bufferSize)) SensorMachine.start path m) :
    Linear py bufferSize (coarsen (threads py bufferSize) path) (m.coarse (threads py bufferSize)) :=
  linear_run (sections_atomic codes_disciplined (sound_initial _ _) run)

theorem output_run (run : Run (Next (threads py bufferSize)) SensorMachine.start path m) :
    Run Output.Next {} (path.filterMap queued?) m.outside.output := by
  induction run with
  | nil => exact .nil _
  | @snoc m m' path e earlier moved ih =>
    rw [filterMap_snoc]
    have aside (same : m'.outside.output = m.outside.output) (unseen : queued? (m, e) = none) :
        Run Output.Next {} (path.filterMap queued? ++ (queued? (m, e)).toList) m'.outside.output := by
      rw [same, unseen]
      simpa using ih
    cases moved with
    | @frees i job op next r outside at_call effect =>
      cases effect with
      | begin begun => exact ih.snoc begun
      | finish finished => exact ih.snoc finished
      | setStop => exact aside rfl rfl
      | isStopped => exact aside rfl rfl
    | drifts moved =>
      obtain ⟨output, moved, rfl⟩ := moved
      exact ih.snoc moved
    | _ => exact aside rfl rfl

theorem queued_matched : (path.filterMap queued?).filterMap matched? = path.filterMap handedOut? := by
  rw [List.filterMap_filterMap]
  congr
  funext p
  obtain ⟨m, e⟩ := p
  cases e with
  | frees i op r => cases op <;> rfl
  | drifts traffic => cases traffic <;> rfl
  | _ => rfl

theorem queued_received : (path.filterMap queued?).filterMap received? = path.filterMap consumed? := by
  rw [List.filterMap_filterMap]
  congr
  funext p
  obtain ⟨m, e⟩ := p
  cases e with
  | frees i op r => cases op <;> rfl
  | drifts traffic => cases traffic <;> rfl
  | _ => rfl

theorem handed_first (run : Run (Next (threads py bufferSize)) SensorMachine.start path m) :
    path.filterMap handedOut? <+: (Session.run py bufferSize (path.filterMap entered?)).emitted := by
  obtain ⟨pending, -, emitted⟩ := (sections_linear run).places
  rw [sectionSession, coarsen_entered, coarsen_handed] at emitted
  exact ⟨pending, emitted⟩

/-- In every interleaving of the stream threads, the matcher, `stop` and the consumer, the
buffers are touched by the owner of the lock only, who comes to give it up by its own steps.
While the lock is free the buffers are those of a session that takes the messages and passes
in the order of the sections, and the matcher does not wait while they hold a pair. What is
handed out is what that session gives out, in its order. -/
theorem threads_linear (run : Run (Next (threads py bufferSize)) SensorMachine.start path m) :
    (∀ p ∈ path, ∀ i op, p.2 = .guards i op → p.1.owner = some i) ∧
    (∀ i, m.owner = some i → ∃ path' m', Run (Next (threads py bufferSize)) m path' m' ∧
      m'.owner = none ∧ ∀ p ∈ path', p.2.thread? = some i) ∧
    (m.owner = none →
      m.shared = (Session.run py bufferSize (path.filterMap entered?)).subscriber ∧
        (m.sleep .matcher = .parked → m.shared.common = [])) ∧
    path.filterMap handedOut? <+: (Session.run py bufferSize (path.filterMap entered?)).emitted := by
  have sound : m.Sound := run.invariant_always
    (fun sound moved => sound_next codes_disciplined sound moved) (sound_initial _ _)
  refine ⟨?_, fun i owned => lock_given_up codes_disciplined sound owned, fun unowned => ⟨?_, fun parked => ?_⟩,
    handed_first run⟩
  · refine (Run.invariant (I := Machine.Sound) (fun _ _ => True)
      (fun m e => ∀ i op, e = .guards i op → m.owner = some i)
      (fun sound _ moved => sound_next codes_disciplined sound moved) ?_ run (sound_initial _ _)
      fun _ _ => trivial).2
    rintro m e m' sound - moved i op rfl
    exact guards_owned sound moved
  · have linear := (sections_linear run).buffers
    rw [sectionSession, coarsen_entered, Machine.coarse_unowned _ unowned] at linear
    exact linear
  · exact no_lost_wakeup codes_attentive unmatched_start run unowned parked

/-! ## Delivery -/

theorem entered_rgb (run : Run (Next (threads py bufferSize)) SensorMachine.start path m) :
    (rgbFrames py (path.filterMap entered?)).Sublist (rgbFrames py (path.filterMap begun?)) := by
  have linear := (sections_linear run).rgb
  rw [coarsen_entered, coarsen_begun] at linear
  exact (List.sublist_append_left _ _).trans linear

theorem entered_depth (run : Run (Next (threads py bufferSize)) SensorMachine.start path m) :
    (depthFrames py (path.filterMap entered?)).Sublist (depthFrames py (path.filterMap begun?)) := by
  have linear := (sections_linear run).depth
  rw [coarsen_entered, coarsen_begun] at linear
  exact (List.sublist_append_left _ _).trans linear

/-- What is said of the messages received holds of those stored. -/
theorem Increasing.of_frames {events events' : List (Event Rgb Depth)} (increasing : Increasing py events')
    (rgb : (rgbFrames py events).Sublist (rgbFrames py events'))
    (depth : (depthFrames py events).Sublist (depthFrames py events')) : Increasing py events :=
  ⟨increasing.rgb.sublist (rgb.map Prod.fst), increasing.depth.sublist (depth.map Prod.fst)⟩

theorem wellFormed_of_frames {events events' : List (Event Rgb Depth)}
    (wellFormed : ∀ e ∈ events', e.WellFormed py)
    (rgb : (rgbFrames py events).Sublist (rgbFrames py events'))
    (depth : (depthFrames py events).Sublist (depthFrames py events')) :
    ∀ e ∈ events, e.WellFormed py := by
  intro e member
  constructor
  · intro seq header image received
    have stored := rgb.mem (List.mem_filterMap.mpr ⟨e, member, received⟩)
    obtain ⟨e', member', received'⟩ := List.mem_filterMap.mp stored
    exact (wellFormed e' member').1 seq header image received'
  · intro seq header image received
    have stored := depth.mem (List.mem_filterMap.mpr ⟨e, member, received⟩)
    obtain ⟨e', member', received'⟩ := List.mem_filterMap.mp stored
    exact (wellFormed e' member').2 seq header image received'

/-- The consumer takes what the session gives out, in its order. -/
theorem consumed_emitted (run : Run (Next (threads py bufferSize)) SensorMachine.start path m) :
    (path.filterMap consumed?).Sublist
      (Session.run py bufferSize (path.filterMap entered?)).emitted := by
  have ordered := (accounted_run (output_run run)).ordered
  rw [queued_received, queued_matched, List.append_assoc] at ordered
  exact ((List.sublist_append_left _ _).trans ordered).trans (handed_first run).sublist

/-- Whatever the interleaving, and whatever the queue drops, the consumer's framesets come in
increasing sequence numbers, and each joins an rgb and a depth message received under its own. -/
theorem frames_delivered (run : Run (Next (threads py bufferSize)) SensorMachine.start path m)
    (increasing : Increasing py (path.filterMap begun?))
    (wellFormed : ∀ e ∈ path.filterMap begun?, e.WellFormed py) :
    ((path.filterMap consumed?).map (·.seq)).Pairwise (· < ·) ∧
      ∀ fs ∈ path.filterMap consumed?, ∃ header header',
        (fs.seq, header, fs.rgb) ∈ rgbFrames py (path.filterMap begun?) ∧
        (fs.seq, header', fs.depth) ∈ depthFrames py (path.filterMap begun?) ∧
        frameset py fs.seq (header, fs.rgb) (header', fs.depth) = .ok fs := by
  have rgb := entered_rgb run
  have depth := entered_depth run
  have refines := @session_refines _ _ _ bufferSize _ (wellFormed_of_frames wellFormed rgb depth)
  have inv := Pairing.invariant_run bufferSize (increasing.of_frames rgb depth).ordered
  have consumed := consumed_emitted run
  refine ⟨?_, fun fs taken => ?_⟩
  · have emitted := inv.increasing
    rw [← refines.keys] at emitted
    exact emitted.sublist (consumed.map _)
  · obtain ⟨⟨header, image⟩, ⟨header', image'⟩, held, held', made⟩ :=
      refines.made fs (consumed.mem taken)
    obtain ⟨-, same, same'⟩ := frameset_parts made
    rw [same, same']
    exact ⟨header, header', rgb.mem held, depth.mem held', made⟩

end

/-! ## Two pairs -/

section
variable {m : SensorMachine Rgb Depth} {job : Job Rgb Depth}

/-- What begins in a part of a run and what takes the lock; the consumer takes nothing. -/
structure Traced (path : SensorHistory Rgb Depth) (begun entered : List (Event Rgb Depth)) : Prop where
  begun : path.filterMap begun? = begun
  entered : path.filterMap entered? = entered
  untaken : path.filterMap consumed? = []

theorem Traced.append {path path' : SensorHistory Rgb Depth} {begun entered begun' entered' : List _}
    (first : Traced path begun entered) (second : Traced path' begun' entered') :
    Traced (path ++ path') (begun ++ begun') (entered ++ entered') where
  begun := by rw [List.filterMap_append, first.begun, second.begun]
  entered := by rw [List.filterMap_append, first.entered, second.entered]
  untaken := by rw [List.filterMap_append, first.untaken, second.untaken, List.append_nil]

/-- A stream thread stores a frame and tells who waits for it. -/
theorem stores {set trim : BufferOp Rgb Depth} (sleep : Party → Sleep)
    (code : job.code py = unlessStopped (store set trim)) (idle : m.thread job.party = none)
    (unowned : m.owner = none) (going : m.outside.stopped = false)
    (tells : ∀ m' : SensorMachine Rgb Depth, ∀ next, m'.sleep = m.sleep → m'.owner = some job.party →
      m'.thread job.party = some (job, .step .notify next) →
      Next (threads py bufferSize) m' (.notifies job.party)
        { m'.proceed job.party job (next ()) with sleep }) :
    ∃ path, Run (Next (threads py bufferSize)) m path { m with
        sleep
        shared := (trim.run bufferSize (set.run bufferSize m.shared).2).2 } ∧
      Traced path job.event?.toList job.event?.toList := by
  have stopped := OutsideOp.Performs.isStopped m.outside
  rw [going] at stopped
  have begins : Next (threads py bufferSize) m (.begins job.party job)
      (m.proceed job.party job (unlessStopped (store set trim))) := code ▸ .begins idle rfl
  have run := (Run.single begins).snoc (.frees (Function.update_self _ _ _) stopped)
  have run := run.snoc (.acquires (Function.update_self _ _ _) unowned)
  have run := run.snoc (.guards (Function.update_self _ _ _))
  have run := run.snoc (.guards (Function.update_self _ _ _))
  have run := run.snoc (tells _ _ rfl rfl (Function.update_self _ _ _))
  have run := run.snoc (.releases (Function.update_self _ _ _) rfl)
  have run := run.snoc (.finishes (Function.update_self _ _ _))
  simp only [Machine.proceed, Function.update_idem] at run
  rw [← idle, Function.update_eq_self, ← unowned] at run
  refine ⟨_, run, ?_⟩
  cases job <;> exact ⟨rfl, rfl, rfl⟩

theorem stores_unheard {set trim : BufferOp Rgb Depth}
    (code : job.code py = unlessStopped (store set trim)) (idle : m.thread job.party = none)
    (unowned : m.owner = none) (going : m.outside.stopped = false)
    (nobody : ∀ j, m.sleep j ≠ .parked) :
    ∃ path, Run (Next (threads py bufferSize)) m path { m with
        shared := (trim.run bufferSize (set.run bufferSize m.shared).2).2 } ∧
      Traced path job.event?.toList job.event?.toList := by
  refine stores py bufferSize m.sleep code idle unowned going ?_
  intro m' next same owned at_notify
  rw [← same] at nobody ⊢
  exact .notifiesNobody at_notify owned nobody

theorem stores_rousing {set trim : BufferOp Rgb Depth}
    (code : job.code py = unlessStopped (store set trim)) (idle : m.thread job.party = none)
    (unowned : m.owner = none) (going : m.outside.stopped = false)
    (parked : m.sleep .matcher = .parked) :
    ∃ path, Run (Next (threads py bufferSize)) m path { m with
        sleep := Function.update m.sleep .matcher .roused
        shared := (trim.run bufferSize (set.run bufferSize m.shared).2).2 } ∧
      Traced path job.event?.toList job.event?.toList := by
  refine stores py bufferSize (Function.update m.sleep .matcher .roused) code idle unowned going ?_
  intro m' next same owned at_notify
  rw [← same] at parked ⊢
  exact .notifies at_notify owned parked

theorem traced_of_guards {path : SensorHistory Rgb Depth} {i : Party}
    (guards : ∀ p ∈ path, ∃ op, p.2 = .guards i op) : Traced path [] [] := by
  constructor <;>
  · rw [List.filterMap_eq_nil_iff]
    rintro ⟨m, e⟩ member
    obtain ⟨op, rfl⟩ := guards _ member
    rfl

/-- The matcher goes through its match with the lock, up to what follows it. -/
theorem matches_run {f : List (Frameset Rgb Depth) → ThreadCode Rgb Depth}
    {matched : List (Frameset Rgb Depth)} {left : SensorSubscriber Rgb Depth}
    (at_match : m.thread .matcher = some (.round, under (tryMatchLocked py) f raiseWith))
    (found : m.shared.tryMatch py = (.ok matched, left)) :
    ∃ path, Run (Next (threads py bufferSize)) m path { m with
        thread := Function.update m.thread .matcher (some (.round, f matched))
        shared := left } ∧
      Traced path [] [] := by
  obtain ⟨result, state⟩ := @run_tryMatchLocked _ _ py bufferSize m.shared
  rw [found] at result state
  have result : ((tryMatchLocked py).run (threads py bufferSize).run m.shared).result = .ok matched :=
    result
  have state : ((tryMatchLocked py).run (threads py bufferSize).run m.shared).state = left := state
  obtain ⟨path, run, guards⟩ := under_runs (w := threads py bufferSize) at_match
  rw [result, state] at run
  exact ⟨path, run, traced_of_guards guards⟩

/-- A round of the matcher with the lock, up to what follows its match. -/
theorem rounds {matched : List (Frameset Rgb Depth)} {left : SensorSubscriber Rgb Depth}
    (idle : m.thread .matcher = none) (unowned : m.owner = none)
    (going : m.outside.stopped = false) (found : m.shared.tryMatch py = (.ok matched, left)) :
    ∃ path, Run (Next (threads py bufferSize)) m path { m with
        owner := some .matcher
        thread := Function.update m.thread .matcher (some (.round, matchOrWait py matched))
        shared := left } ∧
      Traced path [.pass] [.pass] := by
  have stopped := OutsideOp.Performs.isStopped m.outside
  rw [going] at stopped
  have begins : Next (threads py bufferSize) m (.begins .matcher .round)
      (m.proceed .matcher .round (unlessStopped (runMatcherRound py))) := .begins idle rfl
  have run := (Run.single begins).snoc (.frees (i := .matcher) rfl stopped)
  have run := run.snoc (.acquires (i := .matcher) rfl unowned)
  obtain ⟨path, matching, traced⟩ :=
    matches_run py bufferSize (f := matchOrWait py) (m := { m with
      owner := some .matcher
      thread := Function.update m.thread .matcher
        (some (.round, under (tryMatchLocked py) (matchOrWait py) raiseWith)) }) rfl found
  simp only [Machine.proceed, Function.update_idem] at run matching
  exact ⟨_, run.trans matching, Traced.append ⟨rfl, rfl, rfl⟩ traced⟩

/-- With nothing to match the matcher waits. -/
theorem parks (idle : m.thread .matcher = none) (unowned : m.owner = none)
    (going : m.outside.stopped = false) (awake : m.sleep .matcher = .awake)
    (found : m.shared.tryMatch py = (.ok [], m.shared)) :
    ∃ path, Run (Next (threads py bufferSize)) m path { m with
        sleep := Function.update m.sleep .matcher .parked
        thread := Function.update m.thread .matcher (some (.round, matchOrWait py [])) } ∧
      Traced path [.pass] [.pass] := by
  obtain ⟨path, run, traced⟩ := rounds py bufferSize idle unowned going found
  have run := run.snoc (.parks (i := .matcher) rfl rfl awake)
  simp only [Machine.slumber] at run
  rw [← unowned] at run
  exact ⟨_, run, traced.append ⟨rfl, rfl, rfl⟩⟩

/-- A frameset that the matcher has found goes into the queue. -/
theorem handsOut {fs : Frameset Rgb Depth} (owned : m.owner = some .matcher)
    (at_release : m.thread .matcher = some (.round, leaveWith [fs]))
    (free : m.outside.output.matcher = none) (room : m.outside.output.queue.length < outputSize) :
    ∃ path, Run (Next (threads py bufferSize)) m path { m with
        owner := none
        thread := Function.update m.thread .matcher none
        outside := { m.outside with output := { queue := m.outside.output.queue ++ [fs] } } } ∧
      Traced path [] [] := by
  have puts : Output.Next { m.outside.output with matcher := some (fs, enqueue fs) }
      (.performs (.put fs)) { queue := m.outside.output.queue ++ [fs], matcher := some (fs, .done ()) } := by
    have performs := Output.Next.performs
      (show ({ m.outside.output with matcher := some (fs, enqueue fs) } : Output _).matcher =
        some (fs, .step (.put fs) _) by rw [enqueue_eq])
    simpa [QueueOp.run, room] using performs
  have run := Run.single (Next.releases (w := threads py bufferSize) at_release owned)
  have run := run.snoc (.frees (i := .matcher) rfl (.begin (.begins free)))
  have run := run.snoc (.drifts (d := .performs (.put fs))
    ⟨_, by exact puts, rfl⟩)
  have run := run.snoc (.frees (i := .matcher) rfl (.finish (.finishes rfl)))
  have run := run.snoc (.finishes (i := .matcher) rfl)
  simp only [Machine.proceed, Function.update_idem] at run
  exact ⟨_, run, rfl, rfl, rfl⟩

/-- A pass that finds a pair at once. -/
theorem passes {fs : Frameset Rgb Depth} {left : SensorSubscriber Rgb Depth}
    (idle : m.thread .matcher = none) (unowned : m.owner = none)
    (going : m.outside.stopped = false) (found : m.shared.tryMatch py = (.ok [fs], left))
    (free : m.outside.output.matcher = none) (room : m.outside.output.queue.length < outputSize) :
    ∃ path, Run (Next (threads py bufferSize)) m path { m with
        shared := left
        outside := { m.outside with output := { queue := m.outside.output.queue ++ [fs] } } } ∧
      Traced path [.pass] [.pass] := by
  obtain ⟨path, matching, traced⟩ := rounds py bufferSize idle unowned going found
  obtain ⟨path', handing, traced'⟩ :=
    handsOut py bufferSize (m := { m with
      owner := some .matcher
      thread := Function.update m.thread .matcher (some (.round, leaveWith [fs]))
      shared := left }) rfl rfl free room
  simp only [Function.update_idem] at handing
  have run := matching.trans handing
  rw [← idle, Function.update_eq_self, ← unowned] at run
  exact ⟨_, run, traced.append traced'⟩

/-- The matcher goes on after its wait, and finds a pair. -/
theorem resumes {fs : Frameset Rgb Depth} {left : SensorSubscriber Rgb Depth}
    (at_wait : m.thread .matcher = some (.round, matchOrWait py [])) (unowned : m.owner = none)
    (roused : m.sleep .matcher = .roused) (found : m.shared.tryMatch py = (.ok [fs], left))
    (free : m.outside.output.matcher = none) (room : m.outside.output.queue.length < outputSize) :
    ∃ path, Run (Next (threads py bufferSize)) m path { m with
        sleep := Function.update m.sleep .matcher .awake
        thread := Function.update m.thread .matcher none
        shared := left
        outside := { m.outside with output := { queue := m.outside.output.queue ++ [fs] } } } ∧
      Traced path [] [.pass] := by
  have run := Run.single (Next.resumes (w := threads py bufferSize) at_wait roused unowned)
  obtain ⟨path, matching, traced⟩ :=
    matches_run py bufferSize (f := leaveWith) (m := { m with
      owner := some .matcher
      sleep := Function.update m.sleep .matcher .awake
      thread := Function.update m.thread .matcher
        (some (.round, under (tryMatchLocked py) leaveWith raiseWith)) }) rfl found
  obtain ⟨path', handing, traced'⟩ :=
    handsOut py bufferSize (m := { m with
      owner := some .matcher
      sleep := Function.update m.sleep .matcher .awake
      thread := Function.update m.thread .matcher (some (.round, leaveWith [fs]))
      shared := left }) rfl rfl free room
  simp only [Machine.proceed, Machine.slumber, Function.update_idem] at run matching handing
  have run := (run.trans matching).trans handing
  rw [← unowned] at run
  exact ⟨_, run, (Traced.append ⟨rfl, rfl, rfl⟩ traced).append traced'⟩

end

def rgbJob (seq : Int) : Job Unit Unit := .rgb (frameHeader seq) (some ())

def depthJob (seq : Int) : Job Unit Unit := .depth (frameHeader seq) (some ())

/-- A buffer with one frame at most. -/
def buffered (frame : Option Int) : Dict Int (Json × Unit) where
  entries := (frame.map fun seq => (seq, frameHeader seq, ())).toList
  nodup := by cases frame <;> simp

/-- The warning comes with the first frameset. -/
def stored (rgb depth : Option Int) (warned : Bool) : SensorSubscriber Unit Unit where
  rgbBuf := buffered rgb
  depthBuf := buffered depth
  warnedMissingDepthScale := warned

def joined (seq : Int) : Frameset Unit Unit where
  tsNs := seq
  seq := seq
  rgb := ()
  depth := ()
  depthScaleM := .ofBits 0
  intrinsics := .object []

theorem tryMatch_unpaired (seq : Int) :
    (stored (some seq) none false).tryMatch plainNumbers =
      (.ok [], stored (some seq) none false) := by
  have common : (stored (some seq) none false).common = [] := by
    simp [stored, buffered, SensorSubscriber.common, Dict.keys]
  rw [SensorSubscriber.tryMatch, common]
  rfl

theorem tryMatch_paired (seq : Int) (warned : Bool) :
    (stored (some seq) (some seq) warned).tryMatch plainNumbers =
      (.ok [joined seq], stored none none true) := by
  have common : (stored (some seq) (some seq) warned).common = [seq] := by
    simp [stored, buffered, SensorSubscriber.common, Dict.keys]
  have found : (buffered (some seq)).find? seq = some (frameHeader seq, ()) := by
    simp [buffered, Dict.find?]
  have gone : (buffered (some seq)).erase seq = buffered none := by
    simp [buffered, Dict.erase]
  have missing : missingScale (frameHeader seq) = true := rfl
  have made : frameset plainNumbers seq (frameHeader seq, ()) (frameHeader seq, ()) =
      .ok (joined seq) := rfl
  rw [SensorSubscriber.tryMatch, common]
  simp [SensorSubscriber.matchSeqs, stored, found, gone, made, missing, Except.map]

theorem code_rgbJob (seq : Int) : (rgbJob seq).code plainNumbers =
    unlessStopped (store (.setRgb seq (frameHeader seq, ())) .trimRgb) := rfl

theorem code_depthJob (seq : Int) : (depthJob seq).code plainNumbers =
    unlessStopped (store (.setDepth seq (frameHeader seq, ())) .trimDepth) := rfl

def awaiting (shared : SensorSubscriber Unit Unit) (sleep : Sleep) : SensorMachine Unit Unit where
  sleep := Function.update (fun _ => .awake) .matcher sleep
  thread := Function.update (fun _ => none) .matcher (some (.round, matchOrWait plainNumbers []))
  shared := shared
  outside := {}

def resting (shared : SensorSubscriber Unit Unit) : SensorMachine Unit Unit where
  shared := shared
  outside := { output := { queue := [joined 1] } }

/-- The first pair comes around a wait of the matcher. -/
theorem first_pair : ∃ path, Run (Next (threads plainNumbers 8)) SensorMachine.start path
      (resting (stored none none true)) ∧
    Traced path [.rgb (frameHeader 1) (some ()), .pass, .depth (frameHeader 1) (some ())]
      [.rgb (frameHeader 1) (some ()), .pass, .depth (frameHeader 1) (some ()), .pass] := by
  obtain ⟨_, stores, first⟩ := stores_unheard plainNumbers 8 (m := SensorMachine.start)
    (code_rgbJob 1) rfl rfl rfl fun _ => Sleep.noConfusion
  obtain ⟨_, waits, second⟩ := parks plainNumbers 8
    (m := { shared := stored (some 1) none false, outside := {} }) rfl rfl rfl rfl
    (tryMatch_unpaired 1)
  obtain ⟨_, rouses, third⟩ := stores_rousing plainNumbers 8
    (m := awaiting (stored (some 1) none false) .parked) (code_depthJob 1) rfl rfl rfl rfl
  obtain ⟨_, wakes, fourth⟩ := resumes plainNumbers 8
    (m := awaiting (stored (some 1) (some 1) false) .roused) rfl rfl rfl (tryMatch_paired 1 false)
    rfl (by decide)
  simp only [awaiting, Function.update_idem] at rouses wakes
  have run := ((stores.trans waits).trans rouses).trans wakes
  rw [Function.update_eq_self, Function.update_eq_self] at run
  exact ⟨_, run, ((first.append second).append third).append fourth⟩

/-- The second is there before the next round. -/
theorem second_pair : ∃ path m, Run (Next (threads plainNumbers 8)) (resting (stored none none true))
      path m ∧ m.outside.output.queue = [joined 1, joined 2] ∧
    Traced path [.rgb (frameHeader 2) (some ()), .depth (frameHeader 2) (some ()), .pass]
      [.rgb (frameHeader 2) (some ()), .depth (frameHeader 2) (some ()), .pass] := by
  obtain ⟨_, stores, first⟩ := stores_unheard plainNumbers 8
    (m := resting (stored none none true)) (code_rgbJob 2) rfl rfl rfl fun _ => Sleep.noConfusion
  obtain ⟨_, stores', second⟩ := stores_unheard plainNumbers 8
    (m := resting (stored (some 2) none true)) (code_depthJob 2) rfl rfl rfl
    fun _ => Sleep.noConfusion
  obtain ⟨_, finds, third⟩ := passes plainNumbers 8
    (m := resting (stored (some 2) (some 2) true)) rfl rfl rfl (tryMatch_paired 2 true) rfl (by decide)
  exact ⟨_, _, (stores.trans stores').trans finds, rfl, (first.append second).append third⟩

theorem two_pairs : ∃ path m, Run (Next (threads plainNumbers 8)) SensorMachine.start path m ∧
    path.filterMap begun? = [.rgb (frameHeader 1) (some ()), .pass, .depth (frameHeader 1) (some ()),
      .rgb (frameHeader 2) (some ()), .depth (frameHeader 2) (some ()), .pass] ∧
    path.filterMap entered? = [.rgb (frameHeader 1) (some ()), .pass,
      .depth (frameHeader 1) (some ()), .pass, .rgb (frameHeader 2) (some ()),
      .depth (frameHeader 2) (some ()), .pass] ∧
    path.filterMap consumed? = [joined 1, joined 2] := by
  obtain ⟨_, first, traced⟩ := first_pair
  obtain ⟨_, m, second, queue, traced'⟩ := second_pair
  obtain ⟨begun, entered, untaken⟩ := traced.append traced'
  have run := (first.trans second).snoc (.drifts (d := .gets (joined 1)) ⟨_, by exact .gets queue, rfl⟩)
  have run := run.snoc (.drifts (d := .gets (joined 2)) ⟨_, by exact .gets rfl, rfl⟩)
  refine ⟨_, _, run, ?_, ?_, ?_⟩
  · rw [List.filterMap_append, List.filterMap_append, begun]
    rfl
  · rw [List.filterMap_append, List.filterMap_append, entered]
    rfl
  · rw [List.filterMap_append, List.filterMap_append, untaken]
    rfl

/-- The matcher enters a second time in its first round, behind the wait. -/
theorem threads_linear_two : ∃ path m, Run (Next (threads plainNumbers 8)) SensorMachine.start path m ∧
    path.filterMap entered? = [.rgb (frameHeader 1) (some ()), .pass,
      .depth (frameHeader 1) (some ()), .pass, .rgb (frameHeader 2) (some ()),
      .depth (frameHeader 2) (some ()), .pass] ∧
    path.filterMap consumed? = [joined 1, joined 2] ∧
    (∀ p ∈ path, ∀ i op, p.2 = .guards i op → p.1.owner = some i) ∧
    path.filterMap handedOut? <+: (Session.run plainNumbers 8 (path.filterMap entered?)).emitted := by
  obtain ⟨path, m, run, -, entered, consumed⟩ := two_pairs
  obtain ⟨owned, -, -, handed⟩ := threads_linear run
  exact ⟨path, m, run, entered, consumed, owned, handed⟩

theorem frames_delivered_two : ∃ path m,
    Run (Next (threads plainNumbers 8)) SensorMachine.start path m ∧
    path.filterMap consumed? = [joined 1, joined 2] ∧
    ((path.filterMap consumed?).map (·.seq)).Pairwise (· < ·) ∧
    ∀ fs ∈ path.filterMap consumed?, ∃ header header',
      (fs.seq, header, fs.rgb) ∈ rgbFrames plainNumbers (path.filterMap begun?) ∧
      (fs.seq, header', fs.depth) ∈ depthFrames plainNumbers (path.filterMap begun?) ∧
      frameset plainNumbers fs.seq (header, fs.rgb) (header', fs.depth) = .ok fs := by
  obtain ⟨path, m, run, begun, -, consumed⟩ := two_pairs
  have increasing : Increasing plainNumbers (path.filterMap begun?) := by
    rw [begun]
    constructor
    · decide +kernel
    · decide +kernel
  have wellFormed : ∀ e ∈ path.filterMap begun?, e.WellFormed plainNumbers := by
    rw [begun]
    intro e member
    simp only [List.mem_cons, List.not_mem_nil, or_false] at member
    rcases member with rfl | rfl | rfl | rfl | rfl | rfl
    · exact rgb_wellFormed 1 _
    · exact pass_wellFormed
    · exact depth_wellFormed 1 _
    · exact rgb_wellFormed 2 _
    · exact depth_wellFormed 2 _
    · exact pass_wellFormed
  exact ⟨path, m, run, consumed, frames_delivered run increasing wellFormed⟩

end Lexaire.Sensor
