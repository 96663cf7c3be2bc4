import Lexaire.Core.Alone
import Lexaire.Orchestrator.BridgeLoss
import Lexaire.Orchestrator.Script

/-! The reason that a mission leaves in the history. The loop sets a local variable on
each of its exits, and an ordered chain that also reads the bridge flag and the count of
decisions makes one label of them. Here a run keeps what it was given: the signals it
saw, the decisions of the VLM, and the calls with what their sockets answered; what
happened is a property of these. -/
namespace Lexaire.Orchestrator
open Atomic Transition Text Op

/-- A dispatched call: under which decision, after which steps, and what its socket answered. -/
structure Call where
  decision : Nat
  history : List Step
  tc : ToolCall
  line : Line

namespace Call

def result (call : Call) : ToolResult :=
  match call.line.reply? with
  | some members => ToolResult.ofReply call.tc (.object members)
  | none => Orchestrator.failure call.tc call.line.failure

def verdict (call : Call) : Verdict := Orchestrator.verdict call.tc call.result

/-- No usable reply: a timeout, another ZMQ error, or a garbled one. -/
def Unanswered (call : Call) : Prop := call.line.reply? = none

/-- The stuck check fires. -/
def Strikes (call : Call) : Prop :=
  call.verdict = .failed ∧ stuckFailureThreshold ≤
    repeatedFailures (call.history ++ [executedStep call.tc call.result]) call.tc call.result

/-- It ends the mission in one of the ways that have a label. -/
def Fatal (call : Call) : Prop := call.verdict = .terminal ∨ call.Unanswered ∨ call.Strikes

/-- The mission goes on after it. -/
def Passed (call : Call) : Prop :=
  call.verdict = .next ∨ call.verdict = .failed ∧ ¬ call.Strikes

theorem verdict_unanswered {call : Call} (unanswered : call.Unanswered) :
    call.verdict = .offline := by
  have none : call.line.reply? = none := unanswered
  rw [verdict, verdict_offline_iff, result, none]
  exact lost_failure call.line

theorem Passed.answered {call : Call} (passed : call.Passed) : ¬ call.Unanswered := by
  intro unanswered
  have offline := verdict_unanswered unanswered
  rcases passed with next | ⟨failed, -⟩
  · simp [offline] at next
  · simp [offline] at failed

end Call

/-- How the VLM can have decided: an error, no tool calls, or some. -/
def isVlmError : Except String VlmDecision → Bool
  | .error _ => true
  | .ok d => d.toolCalls = [] && startsWith "vlm_error:" d.thought

def isBare : Except String VlmDecision → Bool
  | .error _ => false
  | .ok d => d.toolCalls = [] && !startsWith "vlm_error:" d.thought

def isBusy : Except String VlmDecision → Bool
  | .error _ => false
  | .ok d => d.toolCalls ≠ []

structure Log where
  mission : OrchestratorMission := { goalText := "" }
  offline : Bool := false
  cut : Bool := false
  decisions : List (Except String VlmDecision) := []
  calls : List Call := []

/-- The operations of a mission that is not stopped. A call's socket answers as it
likes; the flag is what the calls leave. -/
def Log.performs : (op : Op) → Log → op.Answer → Log → Prop
  | .stopIsSet, s, r, s' => r = false ∧ s' = s
  | .preemptIsSet, s, r, s' => s' = { s with cut := s.cut || r }
  | .queueEmpty, s, r, s' => s' = { s with cut := s.cut || !r }
  | .clearBridgeOffline, s, _, s' => s' = { s with offline := false }
  | .bridgeOffline, s, r, s' => r = s.offline ∧ s' = s
  | .newMission goal, s, _, s' => s' = { s with mission := { goalText := goal } }
  | .mission, s, m, s' => m = s.mission ∧ s' = s
  | .record step executed, s, _, s' => s' = { s with mission := s.mission.record step executed }
  | .vlmResult, s, r, s' => s' = { s with decisions := s.decisions ++ [r] }
  | .dispatchToolCall tc, s, result, s' => ∃ l : Line, l.offline = s.offline ∧
    ((dispatchToolCall tc).run l.answer l.offline).result = .ok result ∧
    s' = { s with
      offline := ((dispatchToolCall tc).run l.answer l.offline).state
      calls := s.calls ++ [⟨s.decisions.length, s.mission.stepHistory, tc, l⟩] }
  | _, s, _, s' => s' = s

/-- The events that the labels stand for. -/
def Log.Happened (s : Log) (maxSteps : Int) : EndReason → Prop
  | .stopped => False
  | .preempted => s.cut = true
  | .terminal tool => ∃ call ∈ s.calls, call.verdict = .terminal ∧ call.tc.name = tool
  | .bridgeOffline => ∃ call ∈ s.calls, call.Unanswered
  | .vlmError => ∃ d ∈ s.decisions, isVlmError d = true
  | .stuckOnRepeatedFailure => ∃ call ∈ s.calls, call.Strikes
  | .noToolCalls => ∃ d, s.decisions.getLast? = some d ∧ isBare d = true
  | .maxDecisions n => n = maxSteps ∧ s.decisions.length = maxSteps ∧ s.cut = false ∧
    (¬ ∃ call ∈ s.calls, call.Fatal) ∧ (¬ ∃ d ∈ s.decisions, isVlmError d = true) ∧
    ¬ ∃ d, s.decisions.getLast? = some d ∧ isBare d = true

/-- A label names what happened, and no other label does. -/
def Log.Truthful (s : Log) (maxSteps : Int) (reason : EndReason) : Prop :=
  ∀ label, reason = label ↔ s.Happened maxSteps label

/-- The calls and decisions whose exits the chain tells apart: no garbled reply; an answer
that reads like a lost bridge, only under the last decision; a repeated failure, and a
decision without tool calls, only before it. -/
structure Log.Plain (s : Log) (maxSteps : Int) : Prop where
  readable : ∀ call ∈ s.calls, call.line.garbled = false
  answered : ∀ call ∈ s.calls, ¬ call.Unanswered → transportFailure call.result.error = true →
    call.decision = maxSteps
  strikes : ∀ call ∈ s.calls, call.Strikes → call.decision ≠ maxSteps
  bare : ∀ d, s.decisions.getLast? = some d → isBare d = true → s.decisions.length ≠ maxSteps

/-! ## What an exit leaves -/

/-- Between two calls, while nothing has ended the mission. -/
structure Log.Calm (s : Log) (count : Nat) : Prop where
  online : s.offline = false
  made : s.decisions.length = count
  busy : ∀ d ∈ s.decisions, isBusy d = true
  passed : ∀ call ∈ s.calls, call.Passed

/-- After the call that ended the mission. -/
structure Log.Closed (s : Log) (count : Nat) (call : Call) : Prop where
  uncut : s.cut = false
  made : s.decisions.length = count
  busy : ∀ d ∈ s.decisions, isBusy d = true
  last : ∃ earlier, s.calls = earlier ++ [call] ∧ ∀ call ∈ earlier, call.Passed
  counted : call.decision = count
  flag : s.offline = (call.line.reply?.isNone && !call.line.garbled)

/-- After the decision that ended it. -/
structure Log.Decided (s : Log) (earlier : List (Except String VlmDecision))
    (d : Except String VlmDecision) : Prop where
  uncut : s.cut = false
  online : s.offline = false
  last : s.decisions = earlier ++ [d]
  busy : ∀ d ∈ earlier, isBusy d = true
  passed : ∀ call ∈ s.calls, call.Passed

theorem isBusy_iff {d : Except String VlmDecision} (busy : isBusy d = true) :
    isVlmError d = false ∧ isBare d = false := by
  cases d with
  | error what => cases busy
  | ok d =>
    have calls : d.toolCalls ≠ [] := by simpa [isBusy] using busy
    simp [isVlmError, isBare, calls]

theorem none_of_passed {calls : List Call} (passed : ∀ call ∈ calls, call.Passed)
    {p : Call → Prop} (never : ∀ {call}, call.Passed → ¬ p call) : ¬ ∃ call ∈ calls, p call :=
  fun ⟨call, member, holds⟩ => never (passed call member) holds

section
variable {s : Log} {count : Nat}

theorem no_error_of_busy {decisions : List (Except String VlmDecision)}
    (busy : ∀ d ∈ decisions, isBusy d = true) : ¬ ∃ d ∈ decisions, isVlmError d = true := by
  rintro ⟨d, member, failed⟩
  have fine := (isBusy_iff (busy d member)).1
  rw [failed] at fine
  cases fine

theorem not_bare_of_busy {decisions : List (Except String VlmDecision)}
    (busy : ∀ d ∈ decisions, isBusy d = true) :
    ¬ ∃ d, decisions.getLast? = some d ∧ isBare d = true := by
  rintro ⟨d, last, bare⟩
  have fine := (isBusy_iff (busy d (List.mem_of_getLast? last))).2
  rw [bare] at fine
  cases fine

theorem Call.Passed.not_terminal {call : Call} (passed : call.Passed) :
    call.verdict ≠ .terminal := by
  rcases passed with next | ⟨failed, -⟩
  · simp [next]
  · simp [failed]

theorem Call.Passed.not_strikes {call : Call} (passed : call.Passed) : ¬ call.Strikes := by
  rcases passed with next | ⟨-, spared⟩
  · rintro ⟨failed, -⟩
    rw [next] at failed
    cases failed
  · exact spared

/-- What no passed call does, a call does only as the last one. -/
theorem Log.Closed.exists_iff {call : Call} (closed : s.Closed count call) {p : Call → Prop}
    (never : ∀ {call}, call.Passed → ¬ p call) : (∃ call ∈ s.calls, p call) ↔ p call := by
  obtain ⟨earlier, split, passed⟩ := closed.last
  rw [split]
  constructor
  · rintro ⟨other, member, holds⟩
    rcases List.mem_append.mp member with before | last
    · exact absurd holds (never (passed other before))
    · obtain rfl := List.mem_singleton.mp last
      exact holds
  · exact fun holds => ⟨call, by simp, holds⟩

end

/-- The state and the local variables at each exit of the loop. -/
inductive Log.Left (s : Log) (maxSteps : Nat) : LoopEnd → Prop where
  | spent (calm : s.Calm maxSteps) (uncut : s.cut = false) : Left s maxSteps { decisionCount := maxSteps }
  | cut {count : Nat} (calm : s.Calm count) (cut : s.cut = true) :
      Left s maxSteps { decisionCount := count, preempted := true }
  | offline {count : Nat} {call : Call} (closed : s.Closed count call)
      (lost : call.verdict = .offline) (within : count ≤ maxSteps) :
      Left s maxSteps { decisionCount := count }
  | stuck {count : Nat} {call : Call} (closed : s.Closed count call) (strikes : call.Strikes)
      (within : count ≤ maxSteps) : Left s maxSteps { decisionCount := count, stuck := true }
  | terminal {count : Nat} {call : Call} (closed : s.Closed count call)
      (ended : call.verdict = .terminal) :
      Left s maxSteps { decisionCount := count, terminalCall := some call.tc.name }
  | vlmError {count : Nat} {earlier : List (Except String VlmDecision)}
      {d : Except String VlmDecision} {what : String} (decided : s.Decided earlier d)
      (failed : isVlmError d = true) :
      Left s maxSteps { decisionCount := count, vlmError := some what }
  | bare {earlier : List (Except String VlmDecision)} {d : Except String VlmDecision}
      (decided : s.Decided earlier d) (bare : isBare d = true) (within : earlier.length < maxSteps) :
      Left s maxSteps { decisionCount := earlier.length + 1 }

/-- The label that the chain makes of the local variables and the flag. -/
def LoopEnd.label (ended : LoopEnd) (maxSteps : Int) (offline : Bool) : EndReason :=
  if ended.preempted then .preempted
  else match ended.terminalCall with
    | some tool => .terminal tool
    | none =>
      if offline then .bridgeOffline
      else if ended.vlmError.isSome then .vlmError
      else if maxSteps ≤ ended.decisionCount then .maxDecisions maxSteps
      else if ended.stuck then .stuckOnRepeatedFailure
      else .noToolCalls

theorem Call.Passed.not_fatal {call : Call} (passed : call.Passed) : ¬ call.Fatal := by
  rintro (terminal | unanswered | strikes)
  · exact passed.not_terminal terminal
  · exact passed.answered unanswered
  · exact passed.not_strikes strikes

theorem Line.garbled_of_reply {l : Line} (answered : l.reply? ≠ none) : l.garbled = false := by
  obtain ⟨members, got⟩ := Option.ne_none_iff_exists'.mp answered
  unfold reply? at got
  split at got
  · next online socket sent received =>
    simp [garbled, outcome, socket, sent, received, Except.bind]
  · cases got

theorem Call.not_lost_of_verdict {call : Call} (judged : call.verdict ≠ .offline) :
    transportFailure call.result.error = false := by
  simpa [Call.verdict, verdict_offline_iff] using judged

theorem Call.Passed.not_lost {call : Call} (passed : call.Passed) :
    transportFailure call.result.error = false := by
  apply not_lost_of_verdict
  rcases passed with next | ⟨failed, -⟩
  · simp [next]
  · simp [failed]

section
variable {s : Log} {maxSteps : Int} {count : Nat}

/-- What the passed calls of a mission say of the condition. -/
theorem Log.plain_of_passed (maxSteps : Int) {calls : List Call} (passed : ∀ call ∈ calls, call.Passed) :
    ∀ call ∈ calls, call.line.garbled = false ∧
      (¬ call.Unanswered → transportFailure call.result.error = true → call.decision = maxSteps) ∧
      (call.Strikes → call.decision ≠ maxSteps) := by
  intro call member
  have fine := passed call member
  refine ⟨Line.garbled_of_reply fine.answered, fun _ lost => ?_, fun strikes => ?_⟩
  · rw [fine.not_lost] at lost
    cases lost
  · exact absurd strikes fine.not_strikes

theorem Log.truthful_iff_of_only {cause : EndReason}
    (only : ∀ label, s.Happened maxSteps label ↔ label = cause) (reason : EndReason) :
    s.Truthful maxSteps reason ↔ reason = cause := by
  constructor
  · exact fun truthful => (truthful cause).mpr ((only cause).mpr rfl)
  · rintro rfl label
    rw [only label]
    exact eq_comm

/-- While nothing has ended the mission, only a signal or the end of the budget can. -/
theorem Log.Calm.happened (calm : s.Calm count) (label : EndReason) :
    s.Happened maxSteps label ↔ s.cut = true ∧ label = .preempted ∨
      s.cut = false ∧ (count : Int) = maxSteps ∧ label = .maxDecisions maxSteps := by
  have uneventful := none_of_passed calm.passed Call.Passed.not_fatal
  have answered := none_of_passed calm.passed Call.Passed.answered
  have spared := none_of_passed calm.passed Call.Passed.not_strikes
  have unended (tool : String) := none_of_passed calm.passed
    (p := fun call => call.verdict = .terminal ∧ call.tc.name = tool)
    fun passed ended => passed.not_terminal ended.1
  have unfailed := no_error_of_busy calm.busy
  have unbare := not_bare_of_busy calm.busy
  cases label <;> simp only [Happened, uneventful, answered, spared, unended, unfailed, unbare,
    calm.made] <;> simp
  all_goals tauto

/-- After the call that ended the mission, that call alone has done anything. -/
theorem Log.Closed.happened {call : Call} (closed : s.Closed count call) (label : EndReason) :
    s.Happened maxSteps label ↔
      call.verdict = .terminal ∧ label = .terminal call.tc.name ∨
      call.Unanswered ∧ label = .bridgeOffline ∨
      call.Strikes ∧ label = .stuckOnRepeatedFailure ∨
      ¬ call.Fatal ∧ (count : Int) = maxSteps ∧ label = .maxDecisions maxSteps := by
  have fatal := closed.exists_iff Call.Passed.not_fatal
  have unanswered := closed.exists_iff Call.Passed.answered
  have strikes := closed.exists_iff Call.Passed.not_strikes
  have ended (tool : String) := closed.exists_iff
    (p := fun call => call.verdict = .terminal ∧ call.tc.name = tool)
    fun passed ended => passed.not_terminal ended.1
  have unfailed := no_error_of_busy closed.busy
  have unbare := not_bare_of_busy closed.busy
  cases label <;> simp only [Happened, fatal, unanswered, strikes, ended, unfailed, unbare,
    closed.made, closed.uncut] <;> simp
  all_goals tauto

theorem Log.Decided.happened {earlier : List (Except String VlmDecision)}
    {d : Except String VlmDecision} (decided : s.Decided earlier d) (label : EndReason) :
    s.Happened maxSteps label ↔ isVlmError d = true ∧ label = .vlmError ∨
      isBare d = true ∧ label = .noToolCalls ∨ isBusy d = true ∧
        (earlier.length + 1 : Int) = maxSteps ∧ label = .maxDecisions maxSteps := by
  have uneventful := none_of_passed decided.passed Call.Passed.not_fatal
  have answered := none_of_passed decided.passed Call.Passed.answered
  have spared := none_of_passed decided.passed Call.Passed.not_strikes
  have unended (tool : String) := none_of_passed decided.passed
    (p := fun call => call.verdict = .terminal ∧ call.tc.name = tool)
    fun passed ended => passed.not_terminal ended.1
  have failed : (∃ d ∈ s.decisions, isVlmError d = true) ↔ isVlmError d = true := by
    rw [decided.last]
    constructor
    · rintro ⟨other, member, failed⟩
      rcases List.mem_append.mp member with before | last
      · exact absurd ⟨other, before, failed⟩ (no_error_of_busy decided.busy)
      · obtain rfl := List.mem_singleton.mp last
        exact failed
    · exact fun failed => ⟨d, by simp, failed⟩
  have last : s.decisions.getLast? = some d := by simp [decided.last]
  have made : s.decisions.length = earlier.length + 1 := by simp [decided.last]
  have busy : isBusy d = true ↔ isVlmError d = false ∧ isBare d = false := by
    cases d with
    | error what => simp [isBusy, isVlmError]
    | ok d =>
      by_cases none : d.toolCalls = [] <;> simp [isBusy, isVlmError, isBare, none]
  cases label <;> simp only [Happened, uneventful, answered, spared, unended, failed, last, made,
    decided.uncut, busy] <;> simp
  all_goals tauto

theorem Log.plain_of_calm (calm : s.Calm count) : s.Plain maxSteps := by
  have passed := plain_of_passed maxSteps calm.passed
  constructor
  case readable => exact fun call member => (passed call member).1
  case answered => exact fun call member => (passed call member).2.1
  case strikes => exact fun call member => (passed call member).2.2
  case bare => exact fun d last bare => absurd ⟨d, last, bare⟩ (not_bare_of_busy calm.busy)

/-- A reply leaves the flag clear. -/
theorem Log.Closed.online {call : Call} (closed : s.Closed count call)
    (answered : ¬ call.Unanswered) : s.offline = false := by
  rw [closed.flag]
  cases got : call.line.reply? with
  | none => exact absurd got answered
  | some members => rfl

theorem Log.Closed.plain_iff {call : Call} (closed : s.Closed count call) :
    s.Plain maxSteps ↔ call.line.garbled = false ∧
      (¬ call.Unanswered → transportFailure call.result.error = true → (count : Int) = maxSteps) ∧
      (call.Strikes → (count : Int) ≠ maxSteps) := by
  obtain ⟨earlier, split, passed⟩ := closed.last
  have member : call ∈ s.calls := by simp [split]
  have before := plain_of_passed maxSteps passed
  rw [← closed.counted]
  constructor
  · intro plain
    exact ⟨plain.readable call member, plain.answered call member, plain.strikes call member⟩
  · intro here
    have each : ∀ call ∈ s.calls, call.line.garbled = false ∧
        (¬ call.Unanswered → transportFailure call.result.error = true → call.decision = maxSteps) ∧
        (call.Strikes → call.decision ≠ maxSteps) := by
      intro other among
      rw [split] at among
      rcases List.mem_append.mp among with earlier | last
      · exact before other earlier
      · obtain rfl := List.mem_singleton.mp last
        exact here
    constructor
    case readable => exact fun call member => (each call member).1
    case answered => exact fun call member => (each call member).2.1
    case strikes => exact fun call member => (each call member).2.2
    case bare => exact fun d last bare => absurd ⟨d, last, bare⟩ (not_bare_of_busy closed.busy)

theorem Log.Decided.plain_iff {earlier : List (Except String VlmDecision)}
    {d : Except String VlmDecision} (decided : s.Decided earlier d) :
    s.Plain maxSteps ↔ (isBare d = true → (earlier.length + 1 : Int) ≠ maxSteps) := by
  have passed := plain_of_passed maxSteps decided.passed
  have last : s.decisions.getLast? = some d := by simp [decided.last]
  have made : s.decisions.length = earlier.length + 1 := by simp [decided.last]
  constructor
  · intro plain bare
    simpa [made] using plain.bare d last bare
  · intro here
    constructor
    case readable => exact fun call member => (passed call member).1
    case answered => exact fun call member => (passed call member).2.1
    case strikes => exact fun call member => (passed call member).2.2
    case bare =>
      intro other same bare
      obtain rfl := Option.some.inj (last.symm.trans same)
      simpa [made] using here bare

end

/-! ### The exits of the loop -/

section
variable {s : Log} {maxSteps count : Nat} {call : Call}
  {earlier : List (Except String VlmDecision)} {d : Except String VlmDecision}

theorem Log.Closed.truthful_terminal (closed : s.Closed count call)
    (ended : call.verdict = .terminal) : s.Truthful maxSteps (LoopEnd.label
      { decisionCount := count, terminalCall := some call.tc.name } maxSteps s.offline) ↔
        s.Plain maxSteps := by
  have answered : ¬ call.Unanswered := fun unanswered => by
    simp [Call.verdict_unanswered unanswered] at ended
  have spared : ¬ call.Strikes := fun strikes => by simp [strikes.1] at ended
  have only (label : EndReason) :
      s.Happened maxSteps label ↔ label = .terminal call.tc.name := by
    simp [closed.happened, answered, spared, ended, Call.Fatal]
  have there : transportFailure call.result.error = false :=
    Call.not_lost_of_verdict (by simp [ended])
  simp [truthful_iff_of_only only, LoopEnd.label, closed.plain_iff, there, spared,
    Line.garbled_of_reply answered]

theorem Log.Closed.truthful_stuck (closed : s.Closed count call) (strikes : call.Strikes)
    (within : count ≤ maxSteps) : s.Truthful maxSteps (LoopEnd.label
      { decisionCount := count, stuck := true } maxSteps s.offline) ↔ s.Plain maxSteps := by
  have answered : ¬ call.Unanswered := fun unanswered => by
    have lost := Call.verdict_unanswered unanswered
    rw [strikes.1] at lost
    cases lost
  have there : transportFailure call.result.error = false :=
    Call.not_lost_of_verdict (by simp [strikes.1])
  have only (label : EndReason) :
      s.Happened maxSteps label ↔ label = .stuckOnRepeatedFailure := by
    simp [closed.happened, answered, strikes, strikes.1, Call.Fatal]
  have online := closed.online answered
  rw [truthful_iff_of_only only, closed.plain_iff]
  simp only [LoopEnd.label, online, Line.garbled_of_reply answered, there, strikes]
  by_cases spent : maxSteps ≤ count
  · obtain rfl := Nat.le_antisymm within spent
    simp
  · have before : (count : Int) ≠ maxSteps := by omega
    simp [spent, before]

/-- The flag names a call without a reply, unless the reply was garbled. -/
theorem Log.Closed.truthful_unanswered (closed : s.Closed count call)
    (lost : call.verdict = .offline) (spared : ¬ call.Strikes) (unanswered : call.Unanswered) :
    s.Truthful maxSteps (LoopEnd.label { decisionCount := count } maxSteps s.offline) ↔
      s.Plain maxSteps := by
  have only (label : EndReason) : s.Happened maxSteps label ↔ label = .bridgeOffline := by
    simp [closed.happened, unanswered, spared, lost, Call.Fatal]
  have flag : s.offline = !call.line.garbled := by
    have reply : call.line.reply?.isNone = true := by simpa [Call.Unanswered] using unanswered
    simp [closed.flag, reply]
  rw [truthful_iff_of_only only, closed.plain_iff]
  simp only [LoopEnd.label, flag]
  cases call.line.garbled with
  | true =>
    by_cases spent : maxSteps ≤ count <;> simp [spent]
  | false => simp [unanswered, spared]

/-- A reply that passes for a lost transport is no reason of the loop's. -/
theorem Log.Closed.truthful_mistaken (closed : s.Closed count call)
    (lost : call.verdict = .offline) (spared : ¬ call.Strikes) (answered : ¬ call.Unanswered)
    (within : count ≤ maxSteps) :
    s.Truthful maxSteps (LoopEnd.label { decisionCount := count } maxSteps s.offline) ↔
      s.Plain maxSteps := by
  have online := closed.online answered
  have lost' : transportFailure call.result.error = true :=
    (verdict_offline_iff call.tc call.result).mp lost
  have harmless : ¬ call.Fatal := by simp [Call.Fatal, lost, answered, spared]
  rw [closed.plain_iff]
  by_cases spent : maxSteps ≤ count
  · obtain rfl := Nat.le_antisymm within spent
    have only (label : EndReason) : s.Happened count label ↔ label = .maxDecisions count := by
      simp [closed.happened, answered, spared, lost, harmless]
    rw [truthful_iff_of_only only]
    simp [LoopEnd.label, online, Line.garbled_of_reply answered, spared]
  · have before : (count : Int) ≠ maxSteps := by omega
    have nothing (label : EndReason) : ¬ s.Happened maxSteps label := by
      simp [closed.happened, answered, spared, lost, before]
    constructor
    · exact fun truthful => absurd ((truthful _).mp rfl) (nothing _)
    · exact fun plain => absurd (plain.2.1 answered lost') before

theorem Log.Closed.truthful_offline (closed : s.Closed count call)
    (lost : call.verdict = .offline) (within : count ≤ maxSteps) :
    s.Truthful maxSteps (LoopEnd.label { decisionCount := count } maxSteps s.offline) ↔
      s.Plain maxSteps := by
  have spared : ¬ call.Strikes := fun strikes => by
    have failed := strikes.1
    rw [lost] at failed
    cases failed
  by_cases unanswered : call.Unanswered
  · exact closed.truthful_unanswered lost spared unanswered
  · exact closed.truthful_mistaken lost spared unanswered within

theorem Log.Decided.truthful_vlmError {what : String} (decided : s.Decided earlier d)
    (failed : isVlmError d = true) : s.Truthful maxSteps (LoopEnd.label
      { decisionCount := count, vlmError := some what } maxSteps s.offline) ↔ s.Plain maxSteps := by
  have unbare : isBare d = false := by
    cases d with
    | error what => rfl
    | ok d => simp_all [isVlmError, isBare]
  have idle : isBusy d = false := by
    cases d with
    | error what => rfl
    | ok d => simp_all [isVlmError, isBusy]
  have only (label : EndReason) : s.Happened maxSteps label ↔ label = .vlmError := by
    simp [decided.happened, failed, unbare, idle]
  simp [truthful_iff_of_only only, LoopEnd.label, decided.online, decided.plain_iff, unbare]

theorem Log.Decided.truthful_bare (decided : s.Decided earlier d) (bare : isBare d = true)
    (within : earlier.length < maxSteps) : s.Truthful maxSteps (LoopEnd.label
      { decisionCount := earlier.length + 1 } maxSteps s.offline) ↔ s.Plain maxSteps := by
  have fine : isVlmError d = false := by
    cases d with
    | error what => cases bare
    | ok d => simp_all [isVlmError, isBare]
  have idle : isBusy d = false := by
    cases d with
    | error what => rfl
    | ok d => simp_all [isBare, isBusy]
  have only (label : EndReason) : s.Happened maxSteps label ↔ label = .noToolCalls := by
    simp [decided.happened, fine, bare, idle]
  rw [truthful_iff_of_only only, decided.plain_iff]
  simp only [LoopEnd.label, decided.online, bare]
  by_cases spent : maxSteps ≤ earlier.length + 1
  · have exhausted : (earlier.length + 1 : Int) = maxSteps := by omega
    simp [exhausted]
  · have before : (earlier.length + 1 : Int) ≠ maxSteps := by omega
    have under : ¬ (maxSteps : Int) ≤ earlier.length + 1 := by omega
    simp [before, under]

end

/-- Whatever exit the loop takes, its label is the true one exactly under the condition. -/
theorem Log.Left.truthful_iff {s : Log} {maxSteps : Nat} {ended : LoopEnd}
    (left : s.Left maxSteps ended) :
    s.Truthful maxSteps (ended.label maxSteps s.offline) ↔ s.Plain maxSteps := by
  cases left with
  | spent calm uncut =>
    have only (label : EndReason) : s.Happened maxSteps label ↔ label = .maxDecisions maxSteps := by
      simp [calm.happened, uncut]
    simp [truthful_iff_of_only only, LoopEnd.label, calm.online, plain_of_calm calm]
  | cut calm cut =>
    have only (label : EndReason) : s.Happened maxSteps label ↔ label = .preempted := by
      simp [calm.happened, cut]
    simp [truthful_iff_of_only only, LoopEnd.label, plain_of_calm calm]
  | terminal closed ended => exact closed.truthful_terminal ended
  | stuck closed strikes within => exact closed.truthful_stuck strikes within
  | offline closed lost within => exact closed.truthful_offline lost within
  | vlmError decided failed => exact decided.truthful_vlmError failed
  | bare decided bare within => exact decided.truthful_bare bare within

/-! ## Runs -/

/-- The label written is the true one exactly under the condition. -/
def Labelled (maxSteps : Int) : Op → Log → Prop
  | .appendHistory (.mission _ _ _ reason), s => s.Truthful maxSteps reason ↔ s.Plain maxSteps
  | _, _ => True

abbrev Labels (maxSteps : Int) {α : Type} (post : α → Log → Prop) (p : Code α) (s : Log) : Prop :=
  Program.Leads Log.performs (Labelled maxSteps) post p s

section Labels
variable {maxSteps : Int} {α β : Type} {post : α → Log → Prop} {s : Log}

theorem labels_mission {f : OrchestratorMission → Code α}
    (rest : Labels maxSteps post (f s.mission) s) : Labels maxSteps post (call .mission >>= f) s := by
  refine .alone_step trivial ?_
  rintro m s' ⟨rfl, rfl⟩
  exact rest

theorem labels_stop {f : Bool → Code α} (rest : Labels maxSteps post (f false) s) :
    Labels maxSteps post (call .stopIsSet >>= f) s := by
  refine .alone_step trivial ?_
  rintro stopped s' ⟨rfl, rfl⟩
  exact rest

theorem labels_flag {f : Bool → Code α} (rest : Labels maxSteps post (f s.offline) s) :
    Labels maxSteps post (call .bridgeOffline >>= f) s := by
  refine .alone_step trivial ?_
  rintro offline s' ⟨rfl, rfl⟩
  exact rest

theorem labels_decision {f : Except String VlmDecision → Code α}
    (rest : ∀ d, Labels maxSteps post (f d) { s with decisions := s.decisions ++ [d] }) :
    Labels maxSteps post (call .vlmResult >>= f) s := by
  refine .alone_step trivial ?_
  rintro d s' rfl
  exact rest d

/-- An operation of which the state keeps nothing. -/
theorem labels_idle {op : Op} {f : op.Answer → Code α} (now : Labelled maxSteps op s)
    (idle : ∀ {r s'}, Log.performs op s r s' → s' = s) (rest : ∀ r, Labels maxSteps post (f r) s) :
    Labels maxSteps post (call op >>= f) s := by
  refine .alone_step now fun r s' effect => ?_
  rw [idle effect]
  exact rest r

theorem labels_preempt {f : Bool → Code α} (quiet : Labels maxSteps post (f false) s)
    (cut : ∀ s', s' = { s with cut := true } → Labels maxSteps post (f true) s') :
    Labels maxSteps post (call .preemptIsSet >>= f) s := by
  refine .alone_step trivial ?_
  rintro preempted s' rfl
  cases preempted with
  | true => exact cut _ (by simp)
  | false =>
    simp only [Bool.or_false]
    exact quiet

end Labels

variable {maxSteps : Int}

theorem recordSkipped_labels (reason : String) (skipped : List ToolCall) {P : Log → Prop} {s : Log}
    (kept : ∀ s mission, P s → P { s with mission }) (h : P s) :
    Labels maxSteps (fun _ s => P s) (recordSkipped reason skipped) s := by
  induction skipped generalizing s with
  | nil => exact .done h
  | cons tc rest ih =>
    refine .alone_step trivial ?_
    rintro ⟨⟩ s' rfl
    exact ih (kept s _ h)

/-- How a batch leaves the mission. -/
def BatchEnd.Closes (count : Nat) : BatchEnd → Log → Prop
  | .preempted, s => s.Calm count ∧ s.cut = true
  | .offline, s => ∃ call, s.Closed count call ∧ call.verdict = .offline
  | .stuck, s => ∃ call, s.Closed count call ∧ call.Strikes
  | .terminal tool, s => ∃ call, s.Closed count call ∧ call.verdict = .terminal ∧ call.tc.name = tool
  | .failed, s | .through, s => s.Calm count ∧ s.cut = false

theorem BatchEnd.Closes.recorded {count : Nat} {ended : BatchEnd} {s : Log}
    (mission : OrchestratorMission) (leaves : ended.Closes count s) :
    ended.Closes count { s with mission } := by
  have calm (calm : s.Calm count) : Log.Calm { s with mission } count :=
    ⟨calm.online, calm.made, calm.busy, calm.passed⟩
  have closed {call : Call} (closed : s.Closed count call) :
      Log.Closed { s with mission } count call :=
    ⟨closed.uncut, closed.made, closed.busy, closed.last, closed.counted, closed.flag⟩
  cases ended with
  | preempted | failed | through => exact leaves.imp_left calm
  | offline | stuck | terminal tool => exact leaves.imp fun call => And.imp_left closed

/-- After the call and its record. -/
def Log.called (s : Log) (made : Call) : Log :=
  { s with
    offline := ((dispatchToolCall made.tc).run made.line.answer made.line.offline).state
    calls := s.calls ++ [made]
    mission := s.mission.record (executedStep made.tc made.result) true }

section
variable {count : Nat} {s : Log} {made : Call}

theorem Log.Calm.closed (calm : s.Calm count) (uncut : s.cut = false)
    (now : made.decision = s.decisions.length) : (s.called made).Closed count made :=
  ⟨uncut, calm.made, calm.busy, ⟨s.calls, rfl, calm.passed⟩, now.trans calm.made,
    dispatchToolCall_offline made.line made.tc⟩

theorem Log.Calm.called (calm : s.Calm count) (uncut : s.cut = false)
    (now : made.decision = s.decisions.length) (passed : made.Passed) :
    (s.called made).Calm count := by
  have closed := calm.closed uncut now
  refine ⟨closed.online passed.answered, calm.made, calm.busy, fun call member => ?_⟩
  rcases List.mem_append.mp member with before | last
  · exact calm.passed call before
  · obtain rfl := List.mem_singleton.mp last
    exact passed

theorem skipped_labels (reason : String) {ended : BatchEnd} (left : List ToolCall)
    (leaves : ended.Closes count s) : Labels maxSteps (fun ended s => ended.Closes count s)
      (recordSkipped reason left >>= fun _ => pure ended : Code BatchEnd) s :=
  .bind (recordSkipped_labels reason left (fun _ _ => .recorded _) leaves) fun _ _ leaves =>
    .done leaves

/-- The rest of a batch is skipped after a failed call, whatever that leads to. -/
theorem failed_labels {strikes : Prop} [Decidable strikes] (rest : List ToolCall)
    (leaves : BatchEnd.Closes count (if strikes then .stuck else .failed) s) :
    Labels maxSteps (fun ended s => ended.Closes count s)
      (recordSkipped "skipped:prior_failure" rest >>= fun _ =>
        if strikes then pure .stuck else pure .failed : Code BatchEnd) s := by
  by_cases strike : strikes
  · simp only [strike, if_true] at leaves ⊢
    exact skipped_labels _ rest leaves
  · simp only [strike, if_false] at leaves ⊢
    exact skipped_labels _ rest leaves

end

theorem dispatchBatch_labels (batch : List ToolCall) {count : Nat} {s : Log}
    (calm : s.Calm count) (uncut : s.cut = false) :
    Labels maxSteps (fun ended s => ended.Closes count s) (dispatchBatch batch) s := by
  induction batch generalizing s with
  | nil => exact .done ⟨calm, uncut⟩
  | cons tc rest ih =>
    refine labels_stop (labels_preempt ?_ ?_)
    · refine .alone_step trivial ?_
      rintro result s' ⟨l, flag, ran, rfl⟩
      refine .alone_step trivial ?_
      rintro ⟨⟩ s' rfl
      let made : Call := ⟨s.decisions.length, s.mission.stepHistory, tc, l⟩
      obtain rfl : made.result = result :=
        Except.ok.inj ((dispatchToolCall_result l tc).symm.trans ran)
      have closed : (s.called made).Closed count made := calm.closed uncut rfl
      cases judged : verdict tc made.result with
      | offline => exact skipped_labels _ rest ⟨made, closed, judged⟩
      | terminal => exact skipped_labels _ rest ⟨made, closed, judged, rfl⟩
      | next => exact ih (calm.called uncut rfl (.inl judged)) uncut
      | failed =>
        apply labels_mission
        apply failed_labels rest
        change BatchEnd.Closes count (if stuckFailureThreshold ≤ repeatedFailures
          (s.mission.stepHistory ++ [executedStep tc made.result]) tc made.result
          then .stuck else .failed) (s.called made)
        by_cases strikes : stuckFailureThreshold ≤ repeatedFailures
            (s.mission.stepHistory ++ [executedStep tc made.result]) tc made.result
        · rw [if_pos strikes]
          exact ⟨made, closed, judged, strikes⟩
        · rw [if_neg strikes]
          have passed : made.Passed := .inr ⟨judged, fun strike => strikes strike.2⟩
          exact ⟨calm.called uncut rfl passed, uncut⟩
    · rintro _ rfl
      exact skipped_labels _ (tc :: rest) ⟨⟨calm.online, calm.made, calm.busy, calm.passed⟩, rfl⟩

theorem overtaken_labels {s : Log} (uncut : s.cut = false) :
    Labels maxSteps (fun cut s' => s' = { s with cut }) overtaken s := by
  refine labels_preempt ?_ ?_
  · refine .alone_step trivial ?_
    rintro empty s' rfl
    exact Program.Leads.done (by simp [uncut])
  · rintro _ rfl
    exact .done rfl

theorem decisionLoop_labels (text : String) {limit left count : Nat} {s : Log}
    (budget : left + count = limit) (calm : s.Calm count) (uncut : s.cut = false) :
    Labels maxSteps (fun ended s => s.Left limit ended) (decisionLoop text left count) s := by
  induction left generalizing count s with
  | zero =>
    obtain rfl : count = limit := by omega
    exact .done (.spent calm uncut)
  | succ left ih =>
    refine labels_stop (.bind (overtaken_labels uncut) ?_)
    rintro cut s' rfl
    have interrupted : Log.Calm { s with cut := true } count :=
      ⟨calm.online, calm.made, calm.busy, calm.passed⟩
    cases cut with
    | true => exact .done (.cut interrupted rfl)
    | false =>
      obtain same : ({ s with cut := false } : Log) = s := by rw [← uncut]
      rw [same]
      refine labels_mission (labels_idle trivial id fun _ => ?_)
      refine labels_idle trivial id fun _ => labels_idle trivial id fun _ => ?_
      refine labels_preempt (labels_stop (labels_decision fun d => ?_)) ?_
      · have decided : Log.Decided { s with decisions := s.decisions ++ [d] } s.decisions d :=
          ⟨uncut, calm.online, rfl, calm.busy, calm.passed⟩
        cases d with
        | error what => exact .done (.vlmError decided rfl)
        | ok decision =>
          change Labels maxSteps _ (if decision.toolCalls = [] then _ else _) _
          split
          · next silent =>
            split
            · next failed => exact .done (.vlmError decided (by simp [isVlmError, silent, failed]))
            · next fine =>
              rw [← calm.made]
              refine .done (.bare decided (by simp [isBare, silent, fine]) ?_)
              have made := calm.made
              omega
          · next busy =>
            have going : Log.Calm { s with decisions := s.decisions ++ [.ok decision] } (count + 1) := by
              refine ⟨calm.online, by simp [calm.made], fun d member => ?_, calm.passed⟩
              rcases List.mem_append.mp member with before | last
              · exact calm.busy d before
              · obtain rfl := List.mem_singleton.mp last
                simp [isBusy, busy]
            refine labels_idle trivial id fun _ => ?_
            refine .bind (dispatchBatch_labels decision.toolCalls going uncut) ?_
            · intro ended s' leaves
              cases ended with
              | preempted => exact .done (.cut leaves.1 leaves.2)
              | offline =>
                obtain ⟨made, closed, lost⟩ := leaves
                exact .done (.offline closed lost (by omega))
              | stuck =>
                obtain ⟨made, closed, strikes⟩ := leaves
                exact .done (.stuck closed strikes (by omega))
              | terminal tool =>
                obtain ⟨made, closed, ended, rfl⟩ := leaves
                exact .done (.terminal closed ended)
              | failed | through => exact ih (by omega) leaves.1 leaves.2
      · rintro _ rfl
        exact .done (.cut interrupted rfl)

theorem endReason_labels (ended : LoopEnd) {s : Log} :
    Labels maxSteps (fun reason s' => s' = s ∧ reason = ended.label maxSteps s.offline)
      (endReason maxSteps ended) s := by
  have told {reason : EndReason} (same : reason = ended.label maxSteps s.offline) :
      Labels maxSteps (fun reason s' => s' = s ∧ reason = ended.label maxSteps s.offline)
        (pure reason) s := .done ⟨rfl, same⟩
  apply labels_stop
  simp only [Bool.false_eq_true, if_false]
  split
  · exact told (by simp [LoopEnd.label, *])
  · cases called : ended.terminalCall with
    | some tool => exact told (by simp [LoopEnd.label, *])
    | none =>
      apply labels_flag
      split
      · exact told (by simp [LoopEnd.label, *])
      · split
        · exact told (by simp [LoopEnd.label, *])
        · split
          · exact told (by simp [LoopEnd.label, *])
          · split <;> exact told (by simp [LoopEnd.label, *])

/-- A mission that begins with a clear flag. -/
theorem mission_labels (positive : 0 ≤ maxSteps) (text : String) {s : Log}
    (online : s.offline = false) (fresh : s.cut = false ∧ s.decisions = [] ∧ s.calls = []) :
    Labels maxSteps (fun _ _ => True) (mission maxSteps text) s := by
  refine .alone_step trivial ?_
  rintro ⟨⟩ _ rfl
  have limit : (maxSteps.toNat : Int) = maxSteps := Int.toNat_of_nonneg positive
  have calm : Log.Calm { s with mission := { goalText := text } } 0 :=
    ⟨online, by simp [fresh], by simp [fresh], by simp [fresh]⟩
  change Labels maxSteps _ (decisionLoop text maxSteps.toNat 0 >>= _) _
  refine .bind (decisionLoop_labels text (Nat.add_zero _) calm fresh.1) fun ended s left => ?_
  refine .bind (endReason_labels ended) ?_
  rintro reason s' ⟨same, rfl⟩
  subst s'
  have exact_label := left.truthful_iff
  rw [limit] at exact_label
  refine labels_mission (labels_idle exact_label id fun _ => ?_)
  have publishing (state : String) :
      Labels maxSteps (fun _ _ => True) (call (.publishStatus state)) s :=
    labels_idle trivial id fun _ => .done trivial
  change Labels maxSteps _ (if _ then _ else _) _
  split
  · exact publishing _
  · split
    · exact .done trivial
    · exact publishing _

theorem onCommand_labels {settings : Settings} (positive : 0 ≤ settings.maxSteps)
    (cmd : VoiceCommand) {s : Log} (fresh : s.cut = false ∧ s.decisions = [] ∧ s.calls = []) :
    Labels settings.maxSteps (fun _ _ => True) (onCommand settings cmd) s := by
  refine .alone_step trivial ?_
  rintro ⟨⟩ _ rfl
  refine labels_idle trivial id fun _ => labels_idle trivial id fun _ => ?_
  split
  · have other : (abort cmd.text).All fun op => ∀ s, Labelled settings.maxSteps op s := by
      exact abort_all (fun _ _ => trivial) (fun _ => trivial) (fun _ _ => trivial)
        (fun _ => trivial) cmd.text fun _ _ => trivial
    exact .alone_all (P := fun _ => True) other (fun _ _ _ _ _ _ _ => trivial)
      (fun op s labelled _ => labelled s) (fun _ _ _ _ _ => trivial) trivial
  · exact mission_labels positive cmd.text rfl fresh

/-- The label that a mission leaves in the history is the true one, whatever its decisions,
answers and signals, exactly when its calls and decisions are plain. -/
theorem end_reason_true {settings : Settings} (positive : 1 ≤ settings.maxSteps)
    {cmd : VoiceCommand} {flag : Bool} {path : List _} {said : String} {decisions tools : Nat}
    {reason : EndReason} {next : Unit → Code Unit} {s : Log}
    (run : Run (Turn Log.performs) (onCommand settings cmd, { offline := flag }) path
      (.step (.appendHistory (.mission said decisions tools reason)) next, s)) :
    s.Truthful settings.maxSteps reason ↔ s.Plain settings.maxSteps := by
  have labelled := Program.Holds.along run
    (onCommand_labels (by omega) cmd ⟨rfl, rfl, rfl⟩)
  exact labelled.now_good

/-! ## One call, answered or garbled -/

/-- Executable, for runs whose calls all find the line `l`. -/
def Log.perform? (l : Line) : (op : Op) → Log → op.Answer → Option Log
  | .stopIsSet, s, r => if r = false then some s else none
  | .preemptIsSet, s, r => some { s with cut := s.cut || r }
  | .queueEmpty, s, r => some { s with cut := s.cut || !r }
  | .clearBridgeOffline, s, _ => some { s with offline := false }
  | .bridgeOffline, s, r => if r = s.offline then some s else none
  | .newMission goal, s, _ => some { s with mission := { goalText := goal } }
  | .mission, s, m => if m = s.mission then some s else none
  | .record step executed, s, _ => some { s with mission := s.mission.record step executed }
  | .vlmResult, s, r => some { s with decisions := s.decisions ++ [r] }
  | .dispatchToolCall tc, s, result =>
    if l.offline = s.offline ∧
        ((dispatchToolCall tc).run l.answer l.offline).result.toOption = some result then
      some { s with
        offline := ((dispatchToolCall tc).run l.answer l.offline).state
        calls := s.calls ++ [⟨s.decisions.length, s.mission.stepHistory, tc, l⟩] }
    else none
  | _, s, _ => some s

theorem Log.perform?_sound {l : Line} {op : Op} {s s' : Log} {r : op.Answer}
    (done : Log.perform? l op s r = some s') : Log.performs op s r s' := by
  cases op with
  | stopIsSet | bridgeOffline | mission =>
    simp only [perform?, Option.ite_none_right_eq_some, Option.some.injEq] at done
    exact ⟨done.1, done.2.symm⟩
  | dispatchToolCall tc =>
    simp only [perform?, Option.ite_none_right_eq_some, Option.some.injEq] at done
    obtain ⟨⟨flag, returned⟩, rfl⟩ := done
    refine ⟨l, flag, ?_, rfl⟩
    cases ran : ((dispatchToolCall tc).run l.answer l.offline).result with
    | ok result =>
      rw [ran] at returned
      rw [Option.some.inj returned]
    | error e =>
      rw [ran] at returned
      cases returned
  | _ => exact (Option.some.inj done).symm

def landingResult (l : Line) : ToolResult :=
  Call.result ⟨1, [], landCall, l⟩

/-- A mission of one decision, `land`, up to the result of the call. -/
def landingEvents (l : Line) : List (Event Op.Answer) :=
  let fresh : OrchestratorMission := { goalText := "land" }
  [⟨.clearBridgeOffline, ()⟩, ⟨.preemptClear, ()⟩, ⟨.setArmAuthorized false, ()⟩,
    ⟨.newMission "land", ()⟩, ⟨.stopIsSet, false⟩, ⟨.preemptIsSet, false⟩, ⟨.queueEmpty, true⟩,
    ⟨.mission, fresh⟩, ⟨.publishStatus "thinking", ()⟩,
    ⟨.vlmSubmit { userCommand := "land", mission := fresh }, ()⟩, ⟨.vlmWait, ()⟩,
    ⟨.preemptIsSet, false⟩, ⟨.stopIsSet, false⟩,
    ⟨.vlmResult, .ok { thought := "", toolCalls := [landCall] }⟩, ⟨.publishStatus "executing", ()⟩,
    ⟨.stopIsSet, false⟩, ⟨.preemptIsSet, false⟩, ⟨.dispatchToolCall landCall, landingResult l⟩,
    ⟨.record (executedStep landCall (landingResult l)) true, ()⟩, ⟨.stopIsSet, false⟩]

def afterLanding (l : Line) : OrchestratorMission :=
  OrchestratorMission.record { goalText := "land" } (executedStep landCall (landingResult l)) true

def landingLine : Line :=
  { received := .ok (.object [("request_id", .string "1"), ("ok", .boolean true)]) }

/-- The reply to `land` is a list. -/
def garbledLine : Line := { received := .ok (.array []) }

/-- A landing that the bridge confirms. -/
theorem end_reason_true_landing :
    1 ≤ asciiSettings.maxSteps ∧ ∃ path, ∃ next : Unit → Code Unit, ∃ s,
      Run (Turn Log.performs) (onCommand asciiSettings { text := "land" }, { offline := true }) path
        (.step (.appendHistory (.mission "land" 1 1 (.terminal "land"))) next, s) ∧
      (s.Truthful asciiSettings.maxSteps (.terminal "land") ↔ s.Plain asciiSettings.maxSteps) := by
  have replayed : ∃ path next s,
      replay (turn? (Log.perform? landingLine)) (onCommand asciiSettings { text := "land" },
        { offline := true }) (landingEvents landingLine ++ [⟨.mission, afterLanding landingLine⟩]) =
      some (path, .step (.appendHistory (.mission "land" 1 1 (.terminal "land"))) next, s) :=
    ⟨_, _, _, rfl⟩
  obtain ⟨path, next, s, replayed⟩ := replayed
  have run := Run.of_replay (fun taken => turn?_sound Log.perform?_sound taken) replayed
  exact ⟨by decide, path, next, s, run, end_reason_true (by decide) run⟩

/-- A garbled reply ends the mission, which the history blames on a decision without calls. -/
theorem garbled_reply_unnamed : ¬ ∀ (settings : Settings) (cmd : VoiceCommand) path said decisions
    tools reason, ∀ next : Unit → Code Unit, ∀ s, 1 ≤ settings.maxSteps →
      Run (Turn Log.performs) (onCommand settings cmd, {}) path
        (.step (.appendHistory (.mission said decisions tools reason)) next, s) →
      s.Truthful settings.maxSteps reason := by
  intro claimed
  have replayed : ∃ path next s,
      replay (turn? (Log.perform? garbledLine)) (onCommand asciiSettings { text := "land" }, {})
        (landingEvents garbledLine ++ [⟨.bridgeOffline, false⟩, ⟨.mission, afterLanding garbledLine⟩]) =
      some (path, .step (.appendHistory (.mission "land" 1 1 .noToolCalls)) next, s) ∧
      s.decisions.getLast? = some (.ok { thought := "", toolCalls := [landCall] }) :=
    ⟨_, _, _, rfl, rfl⟩
  obtain ⟨path, next, s, replayed, last⟩ := replayed
  have run := Run.of_replay (fun taken => turn?_sound Log.perform?_sound taken) replayed
  obtain ⟨d, same, bare⟩ := (claimed _ _ path _ _ _ _ next s (by decide) run .noToolCalls).mp rfl
  obtain rfl := Option.some.inj (last.symm.trans same)
  cases bare

end Lexaire.Orchestrator
