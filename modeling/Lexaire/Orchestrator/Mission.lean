import Lexaire.Core.Program
import Lexaire.Orchestrator.Messages

/-! The decision loop of the main thread: one user command, its VLM decisions and
the tool calls of each. Everything another thread, the VLM or the bridge can
influence is an operation; so are the accesses to the mission object, which makes
its state at every point of a run part of the run. -/
namespace Lexaire.Orchestrator
open Atomic Text

/-- `_TERMINAL_TOOLS`. -/
def terminalTools : List String := ["hold", "land", "abort", "return_to_launch", "kill", "disarm"]

def stuckFailureWindow : Nat := 4
def stuckFailureThreshold : Nat := 2

/-- An entry of `step_history`, without its time. -/
structure Step where
  tool : String
  args : List (String × Json)
  ok : Bool
  error : Json
deriving DecidableEq

/-- `step_history` holds executed and skipped entries, `current_step` counts the
executed ones. -/
structure OrchestratorMission where
  goalText : String
  currentStep : Nat := 0
  stepHistory : List Step := []
deriving DecidableEq

def OrchestratorMission.record (m : OrchestratorMission) (step : Step) (executed : Bool) :
    OrchestratorMission where
  goalText := m.goalText
  currentStep := if executed then m.currentStep + 1 else m.currentStep
  stepHistory := m.stepHistory ++ [step]

/-- What of the context the orchestrator decides; the rest is what it last heard. -/
structure VlmContext where
  userCommand : String
  mission : OrchestratorMission
deriving DecidableEq

inductive EndReason where
  | stopped | preempted | bridgeOffline | vlmError | stuckOnRepeatedFailure | noToolCalls
  | terminal (tool : String)
  | maxDecisions (maxSteps : Int)
deriving DecidableEq

/-- A line of the orchestrator's history. -/
inductive HistoryEntry where
  | aborted (text : String) (result : ToolResult)
  | mission (text : String) (decisions tools : Nat) (reason : EndReason)
deriving DecidableEq

inductive Op where
  | stopIsSet
  | preemptIsSet
  | preemptClear
  | queueEmpty
  | clearBridgeOffline
  | bridgeOffline
  | setArmAuthorized (value : Bool)
  | publishStatus (state : String)
  | newRequestId
  | newMission (goal : String)
  | mission
  | record (step : Step) (executed : Bool)
  | vlmSubmit (ctx : VlmContext)
  | vlmWait
  | vlmResult
  | dispatchToolCall (tc : ToolCall)
  | appendHistory (entry : HistoryEntry)
deriving DecidableEq

/-- `vlmResult` is what `decide` returned, or the `repr` of what it raised. -/
@[reducible] def Op.Answer : Op → Type
  | .stopIsSet | .preemptIsSet | .queueEmpty | .bridgeOffline => Bool
  | .preemptClear | .clearBridgeOffline | .setArmAuthorized _ | .publishStatus _ | .newMission _
  | .record _ _ | .vlmSubmit _ | .vlmWait | .appendHistory _ => Unit
  | .newRequestId => String
  | .mission => OrchestratorMission
  | .vlmResult => Except String VlmDecision
  | .dispatchToolCall _ => ToolResult

/-- No exception leaves the code below. -/
abbrev Code := Program Op Op.Answer Empty

namespace Op

def call (op : Op) : Code op.Answer := Program.perform op

end Op

open Op

/-- How the bridge can fail to be there, by the error of a call. -/
def transportFailure : Json → Bool
  | .string error => error == "bridge_offline" || error == "timeout" || startsWith "wire_error" error
  | _ => false

/-- What the loop makes of a result. -/
inductive Verdict where
  | offline | failed | terminal | next
deriving DecidableEq

def verdict (tc : ToolCall) (result : ToolResult) : Verdict :=
  if transportFailure result.error then .offline
  else if !result.ok && result.error ≠ .null then .failed
  else if terminalTools.contains tc.name then .terminal
  else .next

def executedStep (tc : ToolCall) (result : ToolResult) : Step :=
  { tool := tc.name, args := tc.args, ok := result.ok, error := result.error }

def skippedStep (reason : String) (tc : ToolCall) : Step :=
  { tool := tc.name, args := tc.args, ok := false, error := .string reason }

/-- `_record_skipped`. -/
def recordSkipped (reason : String) : List ToolCall → Code Unit
  | [] => return
  | skipped :: rest => do
    call (.record (skippedStep reason skipped) false)
    recordSkipped reason rest

/-- Equal failures among the last steps, the one just recorded included. -/
def repeatedFailures (history : List Step) (tc : ToolCall) (result : ToolResult) : Nat :=
  (history.drop (history.length - stuckFailureWindow)).countP fun step =>
    step.tool == tc.name && step.error == result.error

/-- How a batch is left; `through` when its last call has been made. -/
inductive BatchEnd where
  | preempted | offline | stuck | failed | through
  | terminal (tool : String)
deriving DecidableEq

/-- `stop_event.is_set() or preempt_event.is_set()`. -/
def interrupted : Code Bool := do
  if ← call .stopIsSet then return true
  call .preemptIsSet

def dispatchBatch : List ToolCall → Code BatchEnd
  | [] => return .through
  | tc :: rest => do
    if ← interrupted then
      recordSkipped "skipped:preempted" (tc :: rest)
      return .preempted
    else
      let result ← call (.dispatchToolCall tc)
      call (.record (executedStep tc result) true)
      match verdict tc result with
      | .offline =>
        recordSkipped "skipped:bridge_offline" rest
        return .offline
      | .failed =>
        let mission ← call .mission
        recordSkipped "skipped:prior_failure" rest
        if stuckFailureThreshold ≤ repeatedFailures mission.stepHistory tc result then return .stuck
        else return .failed
      | .terminal =>
        recordSkipped "skipped:after_terminal" rest
        return .terminal tc.name
      | .next => dispatchBatch rest

/-- What the loop's local variables hold when it is left. -/
structure LoopEnd where
  decisionCount : Nat
  preempted : Bool := false
  terminalCall : Option String := none
  vlmError : Option String := none
  stuck : Bool := false
deriving DecidableEq

/-- `preempt_event.is_set() or not command_q.empty()`. -/
def overtaken : Code Bool := do
  if ← call .preemptIsSet then return true
  return !(← call .queueEmpty)

/-- The loop over decisions, with how many are left and how many were made.
Waiting for the VLM ends when its future is done or a signal is seen. -/
def decisionLoop (text : String) : Nat → Nat → Code LoopEnd
  | 0, decisionCount => return { decisionCount }
  | left + 1, decisionCount => do
    if ← call .stopIsSet then return { decisionCount }
    else if ← overtaken then return { decisionCount, preempted := true }
    else
      let mission ← call .mission
      call (.publishStatus "thinking")
      call (.vlmSubmit { userCommand := text, mission })
      call .vlmWait
      let preempted ← call .preemptIsSet
      let abandoned ← if preempted then pure true else call .stopIsSet
      if abandoned then return { decisionCount, preempted := true }
      else
        match ← call .vlmResult with
        | .error what => return { decisionCount, vlmError := some ("vlm_error: " ++ what) }
        | .ok decision =>
          if decision.toolCalls = [] then
            if startsWith "vlm_error:" decision.thought then
              return { decisionCount := decisionCount + 1, vlmError := some decision.thought }
            else return { decisionCount := decisionCount + 1 }
          else
            call (.publishStatus "executing")
            match ← dispatchBatch decision.toolCalls with
            | .preempted => return { decisionCount := decisionCount + 1, preempted := true }
            | .offline => return { decisionCount := decisionCount + 1 }
            | .stuck => return { decisionCount := decisionCount + 1, stuck := true }
            | .terminal tool =>
              return { decisionCount := decisionCount + 1, terminalCall := some tool }
            | .failed | .through => decisionLoop text left (decisionCount + 1)

def endReason (maxSteps : Int) (ended : LoopEnd) : Code EndReason := do
  if ← call .stopIsSet then return .stopped
  else if ended.preempted then return .preempted
  else
    match ended.terminalCall with
    | some tool => return .terminal tool
    | none =>
      if ← call .bridgeOffline then return .bridgeOffline
      else if ended.vlmError.isSome then return .vlmError
      else if maxSteps ≤ ended.decisionCount then return .maxDecisions maxSteps
      else if ended.stuck then return .stuckOnRepeatedFailure
      else return .noToolCalls

def mission (maxSteps : Int) (text : String) : Code Unit := do
  call (.newMission text)
  let ended ← decisionLoop text maxSteps.toNat 0
  let reason ← endReason maxSteps ended
  let mission ← call .mission
  call (.appendHistory (.mission text ended.decisionCount mission.currentStep reason))
  if reason = .vlmError then call (.publishStatus "vlm_error")
  else if reason = .bridgeOffline then return
  else call (.publishStatus "idle")

/-- The abort branch of `_on_command`. -/
def abort (text : String) : Code Unit := do
  call (.publishStatus "aborted")
  let requestId ← call .newRequestId
  let result ← call (.dispatchToolCall { requestId, name := "abort" })
  if !result.ok then
    if ← call .bridgeOffline then call (.publishStatus "bridge_offline")
    else call (.publishStatus "abort_failed")
  call (.appendHistory (.aborted text result))

/-- What `__init__` takes from the configuration, and from the regex engine. -/
structure Settings where
  alphabet : Alphabet
  abortKeyword : String := "abort"
  maxSteps : Int := 10

def Settings.isAbort (settings : Settings) (cmd : VoiceCommand) : Bool :=
  cmd.isAbort || settings.alphabet.search settings.abortKeyword cmd.text

def onCommand (settings : Settings) (cmd : VoiceCommand) : Code Unit := do
  call .clearBridgeOffline
  call .preemptClear
  call (.setArmAuthorized (settings.alphabet.search "arm" cmd.text))
  if settings.isAbort cmd then abort cmd.text
  else mission settings.maxSteps cmd.text

section
variable {α : Type}

/-- The answer's type is known by its name only when the operation is. -/
@[simp] theorem call_bind (op : Op) (f : op.Answer → Code α) :
    @bind Code _ (no_index op.Answer) α (call op) f = .step op f := rfl

end

theorem recordSkipped_all {φ : Op → Prop} (records : ∀ step, φ (.record step false))
    (reason : String) (skipped : List ToolCall) : (recordSkipped reason skipped).All φ := by
  induction skipped with
  | nil => trivial
  | cons tc rest ih => exact ⟨records _, fun _ => ih⟩

theorem endReason_all {φ : Op → Prop} (stop : φ .stopIsSet) (offline : φ .bridgeOffline)
    (maxSteps : Int) (ended : LoopEnd) : (endReason maxSteps ended).All φ := by
  simp only [endReason, call_bind, Program.all_step, Program.all_ite]
  refine ⟨stop, fun stopped => ⟨fun _ => trivial, fun _ => ⟨fun _ => trivial, fun _ => ?_⟩⟩⟩
  cases ended.terminalCall with
  | some tool => trivial
  | none => simp [offline]

section
variable {φ : Op → Prop}

theorem call_all {α : Type} {op : Op} {f : op.Answer → Code α} (fits : φ op)
    (rest : ∀ r, (f r).All φ) : (call op >>= f : Code α).All φ :=
  ⟨fits, rest⟩

theorem interrupted_all (stop : φ .stopIsSet) (preempt : φ .preemptIsSet) : interrupted.All φ := by
  apply call_all stop
  intro stopped
  cases stopped with
  | true => trivial
  | false => exact ⟨preempt, fun _ => trivial⟩

theorem overtaken_all (preempt : φ .preemptIsSet) (queue : φ .queueEmpty) : overtaken.All φ := by
  apply call_all preempt
  intro preempted
  cases preempted with
  | true => trivial
  | false => exact call_all queue fun _ => trivial

theorem dispatchBatch_all (stop : φ .stopIsSet) (preempt : φ .preemptIsSet)
    (calls : ∀ tc, φ (.dispatchToolCall tc)) (records : ∀ step executed, φ (.record step executed))
    (mission : φ .mission) (batch : List ToolCall) : (dispatchBatch batch).All φ := by
  induction batch with
  | nil => trivial
  | cons tc rest ih =>
    refine .bind (interrupted_all stop preempt) fun cut => ?_
    have skipped (reason : String) (skipped : List ToolCall) : (recordSkipped reason skipped).All φ :=
      recordSkipped_all (records · false) reason skipped
    cases cut with
    | true => exact .bind (skipped _ _) fun _ => trivial
    | false =>
      refine call_all (calls tc) fun result => call_all (records _ true) fun _ => ?_
      cases verdict tc result with
      | offline | terminal => exact .bind (skipped _ _) fun _ => trivial
      | failed =>
        refine call_all mission fun history => .bind (skipped _ _) fun _ => ?_
        split <;> trivial
      | next => exact ih

theorem abort_all (publish : ∀ state, φ (.publishStatus state)) (request : φ .newRequestId)
    (calls : ∀ requestId, φ (.dispatchToolCall { requestId, name := "abort" }))
    (offline : φ .bridgeOffline) (text : String)
    (notes : ∀ result, φ (.appendHistory (.aborted text result))) : (abort text).All φ := by
  refine call_all (publish _) fun _ => call_all request fun requestId => ?_
  apply call_all (calls requestId)
  intro result
  have noted : (call (.appendHistory (.aborted text result))).All φ := ⟨notes _, fun _ => trivial⟩
  change Program.All φ (if _ then _ else _)
  split
  · apply call_all offline
    intro lost
    cases lost <;> exact ⟨publish _, fun _ => noted⟩
  · exact noted

end

/-- The operations after the resets with which a command begins. -/
def Op.afterResets : Op → Bool
  | .clearBridgeOffline | .preemptClear | .setArmAuthorized _ => false
  | _ => true

abbrev Underway {α : Type} (p : Code α) : Prop := p.All (·.afterResets = true)

theorem underway_call {α : Type} {op : Op} {f : op.Answer → Code α}
    (fits : op.afterResets = true) (rest : ∀ r, Underway (f r)) : Underway (call op >>= f) :=
  ⟨fits, rest⟩

theorem dispatchBatch_underway (batch : List ToolCall) : Underway (dispatchBatch batch) :=
  dispatchBatch_all (by rfl) (by rfl) (fun _ => by rfl) (fun _ _ => by rfl) (by rfl) batch

theorem overtaken_underway : Underway overtaken := overtaken_all rfl rfl

theorem decisionLoop_underway (text : String) (left decisionCount : Nat) :
    Underway (decisionLoop text left decisionCount) := by
  induction left generalizing decisionCount with
  | zero => trivial
  | succ left ih =>
    apply underway_call rfl
    intro stopped
    cases stopped with
    | true => trivial
    | false =>
      refine .bind overtaken_underway fun overtaken => ?_
      cases overtaken with
      | true => trivial
      | false =>
        refine underway_call rfl fun mission => underway_call rfl fun _ => ?_
        refine underway_call rfl fun _ => underway_call rfl fun _ => underway_call rfl ?_
        intro preempted
        cases preempted with
        | true => trivial
        | false =>
          apply underway_call rfl
          intro stopped
          cases stopped with
          | true => trivial
          | false =>
            apply underway_call rfl
            intro result
            cases result with
            | error what => trivial
            | ok decision =>
              change Underway (if decision.toolCalls = [] then _ else _)
              split
              · split <;> trivial
              · apply underway_call rfl
                intro _
                refine .bind (dispatchBatch_underway decision.toolCalls) fun ended => ?_
                cases ended with
                | failed | through => exact ih (decisionCount + 1)
                | _ => trivial

theorem mission_underway (maxSteps : Int) (text : String) : Underway (mission maxSteps text) := by
  apply underway_call rfl
  intro _
  refine .bind (decisionLoop_underway text maxSteps.toNat 0) fun ended => ?_
  refine .bind (endReason_all (by rfl) (by rfl) maxSteps ended) fun reason => ?_
  refine underway_call rfl fun mission => underway_call rfl fun _ => ?_
  split
  · exact ⟨rfl, fun _ => trivial⟩
  · split
    · trivial
    · exact ⟨rfl, fun _ => trivial⟩

theorem abort_underway (text : String) : Underway (abort text) :=
  abort_all (fun _ => by rfl) (by rfl) (fun _ => by rfl) (by rfl) text fun _ => by rfl

end Lexaire.Orchestrator
