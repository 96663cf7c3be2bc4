import Lexaire.Core.Crew
import Lexaire.Orchestrator.Script

/-! The main thread from `start()` to the end of the process. SIGINT and SIGTERM set the stop
event at any moment, also between a test of the event and what the test allowed. -/
namespace Lexaire.Orchestrator
open Atomic Transition

/-- What the main thread does around its commands: `get` with its timeout, and `stop()`. -/
inductive LifeOp where
  | get
  | does (op : Op)
  | setStop
  | setPreempt
  | shutdownExecutor
  | stopSubscriber
  | joinThreads
  | closeSockets
  | resetReqSocket
  | term
deriving DecidableEq

/-- Any operation of a command may raise. -/
@[reducible] def LifeOp.Answer : LifeOp → Type
  | .get => Option VoiceCommand
  | .does op => Except PyError op.Answer
  | _ => Unit

abbrev LifeCode := Program LifeOp LifeOp.Answer

def LifeOp.call {ε : Type} (op : LifeOp) : LifeCode ε op.Answer := Program.perform op

def attempt (op : Op) : LifeCode PyError op.Answer := do
  Program.ofExcept (← LifeOp.call (.does op))

/-- The code of a command, with the exceptions that may cut it short. -/
def raising {α : Type} : Code α → LifeCode PyError α
  | .done a => .done a
  | .raise e => e.elim
  | .step op next => attempt op >>= fun r => raising (next r)

/-- `finally: orch.stop()` comes after the rounds of `run()`. -/
inductive LifeBlock where
  | round
  | stop
deriving DecidableEq

def runRound (settings : Settings) : LifeCode PyError (Option LifeBlock) := do
  if ← attempt .stopIsSet then return some .stop
  match ← LifeOp.call .get with
  | none => return some .round
  | some cmd =>
    raising (onCommand settings cmd)
    return some .round

def stopAll : LifeCode Empty (Option LifeBlock) := do
  LifeOp.call .setStop
  LifeOp.call .setPreempt
  LifeOp.call .shutdownExecutor
  LifeOp.call .stopSubscriber
  LifeOp.call .joinThreads
  LifeOp.call .closeSockets
  LifeOp.call .resetReqSocket
  LifeOp.call .term
  return none

/-- Only the stop event is kept; the queue, the VLM and the bridge answer at will. -/
def LifeOp.performs : (op : LifeOp) → Bool → op.Answer → Bool → Prop
  | .does .stopIsSet, stop, r, stop' => r = .ok stop ∧ stop' = stop
  | .setStop, _, _, stop' => stop' = true
  | _, stop, _, stop' => stop' = stop

def mainThread (settings : Settings) : Crew LifeBlock LifeOp LifeOp.Answer Bool where
  block
    | .round => (runRound settings).recover fun _ => some .stop
    | .stop => stopAll
  performs := LifeOp.performs
  drifts _ stop' := stop' = true

abbrev LifeState := Crew.State Unit LifeBlock LifeOp.Answer Bool

abbrev LifeHistory := Crew.History Unit LifeBlock LifeOp.Answer Bool

def LifeState.start (settings : Settings) : LifeState :=
  ⟨fun _ => some ((mainThread settings).block .round), false⟩

/-! ## What a stop may still cost -/

/-- A VLM call, a tool call, and a mission that is noted as anything but stopped. -/
def Op.weight : Op → Nat
  | .vlmSubmit _ | .dispatchToolCall _ => 1
  | .appendHistory (.mission _ _ _ reason) => if reason = .stopped then 0 else 1
  | _ => 0

def stopHeeded : (op : Op) → op.Answer → Prop
  | .stopIsSet, r => r = true
  | _, _ => True

/-- The stop event, as the code of a command sees it. -/
def stopEvent (weight : Op → Nat) : Signal Op Op.Answer where
  heeds := stopHeeded
  costs op _ := weight op

/-- The same for the whole main thread; `taken` is the price of a command. -/
def lifeEvent (weight : Op → Nat) (taken : Nat) : Signal LifeOp LifeOp.Answer where
  heeds
    | .does op, .ok r => stopHeeded op r
    | _, _ => True
  costs
    | .does op, _ => weight op
    | .get, some _ => taken
    | _, _ => 0

theorem exists_heeded (op : Op) : ∃ r, stopHeeded op r := by
  cases op with
  | stopIsSet => exact ⟨true, rfl⟩
  | preemptIsSet | queueEmpty | bridgeOffline => exact ⟨true, trivial⟩
  | newRequestId => exact ⟨"", trivial⟩
  | mission => exact ⟨{ goalText := "" }, trivial⟩
  | vlmResult => exact ⟨.error "", trivial⟩
  | dispatchToolCall => exact ⟨{ requestId := .null, ok := false }, trivial⟩
  | _ => exact ⟨(), trivial⟩

section
variable {α : Type} {weight : Op → Nat} {taken n : Nat} {post : α → Prop}

theorem raising_spends {p : Code α} (spends : p.Spends (stopEvent weight) post n) :
    (raising p).Spends (lifeEvent weight taken) post n := by
  induction p generalizing n with
  | done a => exact spends
  | raise e => exact e.elim
  | step op next ih =>
    intro r heeded
    cases r with
    | ok r => exact ⟨(spends r heeded).1, ih r (spends r heeded).2⟩
    | error e =>
      obtain ⟨r, may⟩ := exists_heeded op
      exact ⟨(spends r may).1, trivial⟩

theorem raising_prudent {p : Code α} (prudent : p.Prudent (stopEvent weight) n) :
    (raising p).Prudent (lifeEvent weight taken) n := by
  induction p with
  | done a => trivial
  | raise e => exact e.elim
  | step op next ih =>
    refine ⟨raising_spends prudent.1, fun r => ?_⟩
    cases r with
    | ok r => exact ih r (prudent.2 r)
    | error e => trivial

end

/-! ## A command that the stop event overtakes -/

abbrev Thrifty {α : Type} (post : α → Prop) (n : Nat) (p : Code α) : Prop :=
  p.Spends (stopEvent Op.weight) post n

abbrev Prudent {α : Type} (p : Code α) : Prop := p.Prudent (stopEvent Op.weight) 1

abbrev Heedful {α : Type} (p : Code α) : Prop := p.Heedful (stopEvent Op.weight) 1

abbrev Free {α : Type} (p : Code α) : Prop := p.All (·.weight = 0)

theorem free_costs (op : Op) (r : op.Answer) (free : op.weight = 0) :
    (stopEvent Op.weight).costs op r = 0 := free

theorem recordSkipped_free (reason : String) (skipped : List ToolCall) :
    Free (recordSkipped reason skipped) :=
  recordSkipped_all (fun _ => rfl) reason skipped

theorem interrupted_free : Free interrupted := interrupted_all rfl rfl

theorem overtaken_free : Free overtaken := overtaken_all rfl rfl

section
variable {α : Type} {op : Op} {f : op.Answer → Code α}

theorem heedful_call (free : op.weight = 0) (rest : ∀ r, Heedful (f r)) :
    Heedful (Op.call op >>= f : Code α) :=
  .free_step (fun _ => free) rest

theorem prudent_call (free : op.weight = 0) (rest : ∀ r, Prudent (f r)) :
    Prudent (Op.call op >>= f : Code α) :=
  .free_step (fun _ => free) rest

theorem paid_call (paid : op.weight ≤ 1) (rest : ∀ r, Heedful (f r)) :
    Prudent (Op.call op >>= f : Code α) :=
  .paid_step (fun _ => paid) rest

/-- Code that asks for the stop event before it goes on. -/
theorem asking_call {f : Bool → Code α} (stopped : Heedful (f true)) (running : Prudent (f false)) :
    Heedful (Op.call .stopIsSet >>= f : Code α) := by
  refine .step (fun _ => rfl) (fun r heeded => ?_) fun r => ?_
  · obtain rfl : r = true := heeded
    exact stopped.spends
  · cases r with
    | true => exact stopped.prudent
    | false => exact running

end

theorem interrupted_heeds : Thrifty (· = true) 0 interrupted := by
  refine .free_step (fun _ => rfl) fun stopped heeded => ?_
  obtain rfl : stopped = true := heeded
  rfl

theorem dispatchBatch_heedful (batch : List ToolCall) : Heedful (dispatchBatch batch) := by
  induction batch with
  | nil => exact .done _
  | cons tc rest ih =>
    have skips (reason : String) (skipped : List ToolCall) (ended : BatchEnd) :
        Heedful (do recordSkipped reason skipped; return ended) :=
      .bind_free (recordSkipped_free reason skipped) free_costs fun _ => .done _
    constructor
    · refine interrupted_heeds.seq fun cut stopped => ?_
      subst stopped
      exact (skips _ _ _).spends
    · refine .bind_free interrupted_free free_costs fun cut => ?_
      cases cut with
      | true => exact (skips _ _ _).prudent
      | false =>
        refine paid_call (le_refl 1) fun result => heedful_call rfl fun _ => ?_
        cases verdict tc result with
        | offline | terminal => exact skips _ _ _
        | failed =>
          refine heedful_call rfl fun mission => ?_
          refine .bind_free (recordSkipped_free _ _) free_costs fun _ => ?_
          split <;> exact .done _
        | next => exact ih

theorem decisionLoop_heedful (text : String) (left decisionCount : Nat) :
    Heedful (decisionLoop text left decisionCount) := by
  induction left generalizing decisionCount with
  | zero => exact .done _
  | succ left ih =>
    refine asking_call (.done _) ?_
    refine .bind_free overtaken_free free_costs fun overtaken => ?_
    cases overtaken with
    | true => trivial
    | false =>
      refine prudent_call rfl fun mission => prudent_call rfl fun _ => ?_
      refine paid_call (le_refl 1) fun _ => heedful_call rfl fun _ => ?_
      apply heedful_call rfl
      intro preempted
      cases preempted with
      | true => exact .done _
      | false =>
        refine asking_call (.done _) ?_
        apply prudent_call rfl
        intro result
        cases result with
        | error what => trivial
        | ok decision =>
          change Prudent (if decision.toolCalls = [] then _ else _)
          split
          · split <;> trivial
          · refine prudent_call rfl fun _ => ?_
            refine (dispatchBatch_heedful decision.toolCalls).prudent.bind fun ended => ?_
            cases ended with
            | failed | through => exact ih (decisionCount + 1)
            | _ => exact .done _

theorem endReason_heeds (maxSteps : Int) (ended : LoopEnd) :
    Thrifty (· = .stopped) 0 (endReason maxSteps ended) := by
  refine .free_step (fun _ => rfl) fun stopped heeded => ?_
  obtain rfl : stopped = true := heeded
  rfl

/-- What `mission` does after its loop: only another reason than a stop has a price. -/
def noteMission (text : String) (ended : LoopEnd) (reason : EndReason) : Code Unit := do
  let mission ← Op.call .mission
  Op.call (.appendHistory (.mission text ended.decisionCount mission.currentStep reason))
  if reason = .vlmError then Op.call (.publishStatus "vlm_error")
  else if reason = .bridgeOffline then return
  else Op.call (.publishStatus "idle")

theorem noteMission_prudent (text : String) (ended : LoopEnd) (reason : EndReason) :
    Prudent (noteMission text ended reason) := by
  refine prudent_call rfl fun mission => paid_call ?_ fun _ => ?_
  · simp only [Op.weight]
    split <;> omega
  · split
    · exact heedful_call rfl fun _ => .done ()
    · split
      · exact .done ()
      · exact heedful_call rfl fun _ => .done ()

theorem noteMission_stopped (text : String) (ended : LoopEnd) :
    Thrifty (fun _ => True) 0 (noteMission text ended .stopped) := by
  have noted : (Op.appendHistory (.mission text 0 0 .stopped)).weight = 0 := rfl
  exact (heedful_call rfl fun mission => heedful_call noted fun _ => heedful_call rfl fun _ =>
    .done ()).spends

theorem mission_heedful (maxSteps : Int) (text : String) : Heedful (mission maxSteps text) := by
  refine heedful_call rfl fun _ => ?_
  have noted (ended : LoopEnd) : Heedful (endReason maxSteps ended >>= noteMission text ended) := by
    constructor
    · refine (endReason_heeds maxSteps ended).seq fun reason stopped => ?_
      subst stopped
      exact noteMission_stopped text ended
    · exact .bind_free (endReason_all (by rfl) (by rfl) maxSteps ended) free_costs
        (noteMission_prudent text ended)
  have loop := decisionLoop_heedful text maxSteps.toNat 0
  exact ⟨loop.spends.seq fun ended _ => (noted ended).spends, loop.prudent.bind noted⟩

/-- An abort makes its call whether or not a stop has come. -/
theorem abort_prudent (text : String) : Prudent (abort text) := by
  refine prudent_call rfl fun _ => prudent_call rfl fun requestId => ?_
  refine paid_call (le_refl 1) fun result => ?_
  have noted : Heedful (Op.call (.appendHistory (.aborted text result))) :=
    heedful_call rfl fun _ => .done ()
  change Heedful (if (!result.ok) = true then _ else _)
  split
  · apply heedful_call rfl
    intro offline
    cases offline <;> exact heedful_call rfl fun _ => noted
  · exact noted

theorem onCommand_prudent (settings : Settings) (cmd : VoiceCommand) :
    Prudent (onCommand settings cmd) := by
  refine prudent_call rfl fun _ => prudent_call rfl fun _ => prudent_call rfl fun _ => ?_
  split
  · exact abort_prudent cmd.text
  · exact (mission_heedful settings.maxSteps cmd.text).prudent

/-! ## The main thread -/

/-- What a block does first costs nothing, and a stop seen there ends the rounds. -/
def LifeBlock.rank : LifeBlock → Nat
  | .round => 1
  | .stop => 0

section
variable {settings : Settings} {weight : Op → Nat} {taken n : Nat}

theorem stopAll_spends {post : Option LifeBlock → Prop} (ended : post none) :
    stopAll.Spends (lifeEvent weight taken) post 0 := by
  repeat refine .free_step (fun _ => rfl) fun _ _ => ?_
  exact ended

theorem stopAll_prudent : stopAll.Prudent (lifeEvent weight taken) n := by
  repeat refine .free_step (fun _ => rfl) fun _ => ?_
  trivial

theorem runRound_asks (asked : weight .stopIsSet = 0) :
    (runRound settings).Spends (lifeEvent weight taken) (fun next => next = some .stop) 0 := by
  refine .free_step (fun _ => asked) fun r heeded => ?_
  cases r with
  | ok stopped =>
    obtain rfl : stopped = true := heeded
    rfl
  | error e => trivial

theorem runRound_prudent (asked : weight .stopIsSet = 0) (paid : taken ≤ n)
    (commands : ∀ cmd, (onCommand settings cmd).Prudent (stopEvent weight) (n - taken)) :
    (runRound settings).Prudent (lifeEvent weight taken) n := by
  refine .free_step (fun _ => asked) fun r => ?_
  cases r with
  | error e => trivial
  | ok stopped =>
    cases stopped with
    | true => trivial
    | false =>
      have command (cmd : VoiceCommand) :
          (raising (onCommand settings cmd) >>= fun _ => Program.done (some LifeBlock.round)).Prudent
            (lifeEvent weight taken) (n - taken) :=
        (raising_prudent (commands cmd)).bind fun _ => .done _
      constructor
      · intro got _
        cases got with
        | none => exact ⟨Nat.zero_le n, trivial⟩
        | some cmd => exact ⟨paid, (command cmd).spends⟩
      · intro got
        cases got with
        | none => trivial
        | some cmd => exact (command cmd).mono (Nat.sub_le n taken)

theorem LifeOp.performs_kept {op : LifeOp} {stop stop' : Bool} {r : op.Answer}
    (effect : op.performs stop r stop') : stop' = stop ∨ stop' = true := by
  cases op with
  | does op =>
    cases op with
    | stopIsSet => exact .inl effect.2
    | _ => exact .inl effect
  | setStop => exact .inr effect
  | _ => exact .inl effect

theorem LifeOp.performs_heeds {op : LifeOp} {stop' : Bool} {r : op.Answer}
    (effect : op.performs true r stop') : (lifeEvent weight taken).heeds op r := by
  cases op with
  | does op =>
    cases r with
    | error e => trivial
    | ok r =>
      cases op with
      | stopIsSet => exact Except.ok.inj effect.1
      | _ => trivial
  | _ => trivial

theorem heeded_life (asked : weight .stopIsSet = 0) (paid : taken ≤ n)
    (commands : ∀ cmd, (onCommand settings cmd).Prudent (stopEvent weight) (n - taken)) :
    (mainThread settings).Heeded (lifeEvent weight taken) (· = true) LifeBlock.rank n where
  stays op s r s' up effect := by
    rcases LifeOp.performs_kept effect with same | set
    · exact same.trans up
    · exact set
  drifts _ _ _ moved := moved
  answers op s r s' up effect := by
    subst up
    exact LifeOp.performs_heeds effect
  asks k := by
    cases k with
    | round =>
      refine (runRound_asks asked).recover (fun _ => rfl) |>.weaken fun next same => ?_
      subst same
      rintro _ ⟨⟩
      exact Nat.zero_lt_one
    | stop => exact stopAll_spends (by simp)
  prudent k := by
    cases k with
    | round => exact (runRound_prudent asked paid commands).recover
    | stop => exact stopAll_prudent

end

section
variable {settings : Settings}

theorem start_prudent {g : Signal LifeOp LifeOp.Answer} {raised : Bool → Prop} {rank : LifeBlock → Nat}
    {n : Nat} (heeded : (mainThread settings).Heeded g raised rank n) (i : Unit) :
    ∀ p ∈ (LifeState.start settings).thread i, p.Prudent g n := by
  rintro _ ⟨⟩
  exact heeded.prudent .round

theorem LifeOp.performs_total (op : LifeOp) (stop : Bool) : ∃ r stop', op.performs stop r stop' := by
  cases op with
  | get => exact ⟨none, stop, rfl⟩
  | does op =>
    cases op with
    | stopIsSet => exact ⟨.ok stop, stop, rfl, rfl⟩
    | _ => exact ⟨.error .typeError, stop, rfl⟩
  | setStop => exact ⟨(), true, rfl⟩
  | _ => exact ⟨(), stop, rfl⟩

/-- The main thread never blocks for good: while it has code left it can go on. -/
theorem mainThread_goes_on {m : LifeState} (running : m.thread () ≠ none) :
    ∃ e m', Crew.Next (mainThread settings) m e m' ∧ e.thread? = some () := by
  cases code : m.thread () with
  | none => exact absurd code running
  | some p =>
    cases p with
    | done next =>
      cases next with
      | none => exact ⟨_, _, .ends code, rfl⟩
      | some k => exact ⟨_, _, .goes code, rfl⟩
    | raise e => exact e.elim
    | step op next =>
      obtain ⟨r, stop', effect⟩ := op.performs_total m.shared
      exact ⟨_, _, .performs (w := mainThread settings) code effect, rfl⟩

end

/-- VLM calls, tool calls and missions noted as anything but stopped. -/
def effects (path : LifeHistory) : Nat := Crew.cost (lifeEvent Op.weight 0) () path

def commandsTaken (path : LifeHistory) : Nat := Crew.cost (lifeEvent (fun _ => 0) 1) () path

/-- Once the stop event is set, whenever that is, the main thread does at most one more of these:
a VLM call, a tool call, a note of a mission that is not noted as stopped. It takes one more
command at most; and as it goes on as long as it can, it comes to the end of `stop()`. -/
theorem stop_heeded {settings : Settings} {t m : LifeState} {before after : LifeHistory}
    (first : Run (Crew.Next (mainThread settings)) (LifeState.start settings) before t)
    (rest : Run (Crew.Next (mainThread settings)) t after m) (stopped : t.shared = true) :
    effects after ≤ 1 ∧ commandsTaken after ≤ 1 ∧
      ∀ state label, Crew.Progressing (mainThread settings) state label → state 0 = t →
        ∃ K, (state K).thread () = none := by
  have effectful : (mainThread settings).Heeded (lifeEvent Op.weight 0) (· = true) LifeBlock.rank 1 :=
    heeded_life rfl (Nat.zero_le 1) (onCommand_prudent settings)
  have taking : (mainThread settings).Heeded (lifeEvent (fun _ => 0) 1) (· = true) LifeBlock.rank 1 :=
    heeded_life rfl (le_refl 1) fun cmd => .costless (fun _ _ => rfl) _
  refine ⟨?_, ?_, ?_⟩
  · exact effectful.run (start_prudent effectful) first rest stopped ()
  · exact taking.run (start_prudent taking) first rest stopped ()
  · rintro state label progressing rfl
    obtain ⟨K, still⟩ := effectful.completes progressing stopped
    refine ⟨K, ?_⟩
    by_contra running
    obtain ⟨e, m', moved, own⟩ := mainThread_goes_on running
    rw [still e m' moved] at own
    cases own

def LifeOp.performs? : (op : LifeOp) → Bool → op.Answer → Option Bool
  | .does .stopIsSet, stop, r =>
    match r with
    | .ok found => if found = stop then some stop else none
    | .error _ => none
  | .setStop, _, _ => some true
  | _, stop, _ => some stop

theorem LifeOp.performs?_sound {op : LifeOp} {stop stop' : Bool} {r : op.Answer}
    (performed : op.performs? stop r = some stop') : op.performs stop r stop' := by
  cases op with
  | does op =>
    cases op with
    | stopIsSet =>
      cases r with
      | ok found =>
        simp only [LifeOp.performs?, Option.ite_none_right_eq_some, Option.some.injEq] at performed
        exact ⟨congrArg _ performed.1, performed.2.symm⟩
      | error e => cases performed
    | _ => exact (Option.some.inj performed).symm
  | _ => exact (Option.some.inj performed).symm

/-- A command that is an abort, and what comes after it once the stop event is set. -/
def lateLabels : List (Crew.Label Unit LifeBlock LifeOp.Answer) :=
  let abort : ToolCall := { requestId := "1", name := "abort" }
  let landed : ToolResult := { requestId := .string "1", ok := true }
  [.performs () ⟨.get, some { text := "abort" }⟩,
    .performs () ⟨.does .clearBridgeOffline, .ok ()⟩,
    .performs () ⟨.does .preemptClear, .ok ()⟩,
    .performs () ⟨.does (.setArmAuthorized false), .ok ()⟩,
    .performs () ⟨.does (.publishStatus "aborted"), .ok ()⟩,
    .performs () ⟨.does .newRequestId, .ok "1"⟩,
    .performs () ⟨.does (.dispatchToolCall abort), .ok landed⟩,
    .performs () ⟨.does (.appendHistory (.aborted "abort" landed)), .ok ()⟩,
    .goes () .round,
    .performs () ⟨.does .stopIsSet, .ok true⟩,
    .goes () .stop,
    .performs () ⟨.setStop, ()⟩,
    .performs () ⟨.setPreempt, ()⟩,
    .performs () ⟨.shutdownExecutor, ()⟩,
    .performs () ⟨.stopSubscriber, ()⟩,
    .performs () ⟨.joinThreads, ()⟩,
    .performs () ⟨.closeSockets, ()⟩,
    .performs () ⟨.resetReqSocket, ()⟩,
    .performs () ⟨.term, ()⟩,
    .ends ()]

/-- A stop between the test of the event and `get`: the abort is still taken and sent, and the
thread comes to its end. -/
theorem stop_heeded_late : ∃ t m before after,
    Run (Crew.Next (mainThread asciiSettings)) (LifeState.start asciiSettings) before t ∧
    Run (Crew.Next (mainThread asciiSettings)) t after m ∧ t.shared = true ∧
    m.thread () = none ∧ 1 ≤ effects after ∧ effects after ≤ 1 ∧ commandsTaken after ≤ 1 := by
  let step := Crew.step? (ι := Unit) (mainThread asciiSettings) LifeOp.performs? fun _ => true
  have checked : (replay step (LifeState.start asciiSettings)
      [.performs () ⟨.does .stopIsSet, .ok false⟩, .drifts]).any (fun first => first.2.shared &&
        (replay step first.2 lateLabels).any fun rest =>
          (rest.2.thread ()).isNone && decide (1 ≤ effects rest.1)) = true := by
    decide +kernel
  obtain ⟨⟨before, t⟩, first, later⟩ := (Option.any_eq_true _ _).mp checked
  obtain ⟨stopped, later⟩ := Bool.and_eq_true_iff.mp later
  obtain ⟨⟨after, m⟩, rest, checked⟩ := (Option.any_eq_true _ _).mp later
  obtain ⟨ended, spent⟩ := Bool.and_eq_true_iff.mp checked
  have sound {m m' : LifeState} {e : Crew.Label Unit LifeBlock LifeOp.Answer}
      (moved : step m e = some m') : Crew.Next (mainThread asciiSettings) m e m' :=
    Crew.step?_sound LifeOp.performs?_sound (fun _ => rfl) moved
  have first := Run.of_replay sound first
  have rest := Run.of_replay sound rest
  obtain ⟨once, taken, -⟩ := stop_heeded first rest stopped
  exact ⟨t, m, before, after, first, rest, stopped, Option.isNone_iff_eq_none.mp ended,
    of_decide_eq_true spent, once, taken⟩

end Lexaire.Orchestrator
