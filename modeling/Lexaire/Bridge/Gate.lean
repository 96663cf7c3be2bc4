import Lexaire.Bridge.Loop

/-! A request with the latches standing still. The gate is then a function of
the arguments and the latches, it only reads latches, and a command method runs
exactly when the gate allows the call and its handler asks for the command. -/
namespace Lexaire.Bridge
open Atomic

/-- What the gate decides when no other thread moves a latch. -/
def gate (name : String) (args : Json) (env : SafetyEnvelope) (s : SafetyState) :
    Except String SafetyDecision :=
  if s.aborted && !isEmergencyFollowup name then .ok (deny "abort_active")
  else if name == "arm" && env.requireSpokenArm && !s.armedWithVoice then
    (args.valueBool "voice_confirmed" false).map fun confirmed =>
      if confirmed then checkLimits name args env else deny "spoken_arm_required"
  else if name == "takeoff" && env.requireSpokenArm && !s.armedWithVoice then
    .ok (deny "spoken_arm_required")
  else .ok (checkLimits name args env)

@[simp] theorem deny_allow (reason : String) : (deny reason).allow = false := rfl

def Op.readsLatch : Op → Bool
  | .loadAborted | .loadArmedWithVoice => true
  | _ => false

def Op.storesLatch : Op → Bool
  | .storeAborted _ | .storeArmedWithVoice _ => true
  | _ => false

variable (o : Outside) (s : SafetyState)

theorem spokenArmMissing_run (name : String) (args : Json) (env : SafetyEnvelope) :
    ∃ reads, (spokenArmMissing name args env).run o.answer s =
      ⟨reads, s, if name == "arm" && env.requireSpokenArm && !s.armedWithVoice then
          (args.valueBool "voice_confirmed" false).map (!·)
        else .ok (name == "takeoff" && env.requireSpokenArm && !s.armedWithVoice)⟩ ∧
      ∀ op ∈ reads, op.readsLatch := by
  rcases s with ⟨aborted, latched⟩
  unfold spokenArmMissing
  by_cases arm : name = "arm"
  · subst arm
    cases env.requireSpokenArm with
    | false => simp
    | true =>
      cases latched with
      | true => simp [Op.readsLatch]
      | false =>
        cases args.valueBool "voice_confirmed" false <;> simp [Op.readsLatch, Except.map]
  · by_cases takeoff : name = "takeoff" <;> cases env.requireSpokenArm <;>
      simp [arm, takeoff, Op.readsLatch]

theorem spokenArmMissing_all (name : String) (args : Json) (env : SafetyEnvelope) :
    (spokenArmMissing name args env).All (·.readsLatch = true) := by
  unfold spokenArmMissing
  simp only [loadArmedWithVoice_bind, Program.all_ite, Program.all_step]
  refine ⟨fun _ => ⟨rfl, fun latched => ⟨fun _ => trivial, fun _ => ?_⟩⟩,
    fun _ => ⟨fun _ => ⟨rfl, fun _ => trivial⟩, fun _ => trivial⟩⟩
  exact .bind (by simp) fun _ => trivial

theorem checkTool_all (name : String) (args : Json) (env : SafetyEnvelope) :
    (checkTool name args env).All (·.readsLatch = true) := by
  unfold checkTool
  simp only [loadAborted_bind, Program.all_step, Program.all_ite]
  refine ⟨rfl, fun aborted => ⟨fun _ => trivial, fun _ => ?_⟩⟩
  refine .bind (spokenArmMissing_all name args env) fun missing => ?_
  cases missing <;> trivial

theorem checkTool_run (name : String) (args : Json) (env : SafetyEnvelope) :
    ∃ reads, (checkTool name args env).run o.answer s = ⟨reads, s, gate name args env s⟩ ∧
      ∀ op ∈ reads, op.readsLatch := by
  obtain ⟨reads, missing, latches⟩ := spokenArmMissing_run o s name args env
  unfold checkTool gate
  cases emergency : s.aborted && !isEmergencyFollowup name with
  | true =>
    refine ⟨[.loadAborted], ?_, by simp [Op.readsLatch]⟩
    simp only [loadAborted_bind, Program.run_step, Outside.answer, emergency, if_true,
      Program.pure_eq, Program.run_done]
  | false =>
    simp only [loadAborted_bind, Program.run_step, Outside.answer, emergency, Bool.false_eq_true,
      if_false, Program.run_bind, missing]
    cases name == "arm" && env.requireSpokenArm && !s.armedWithVoice with
    | true =>
      cases args.valueBool "voice_confirmed" false with
      | error e => simpa [Program.Outcome.andThen, Except.map, Op.readsLatch] using latches
      | ok confirmed =>
        cases confirmed <;> simpa [Program.Outcome.andThen, Except.map, Op.readsLatch] using latches
    | false =>
      cases name == "takeoff" && env.requireSpokenArm && !s.armedWithVoice <;>
        simpa [Program.Outcome.andThen, Except.map, Op.readsLatch] using latches

/-- The gate's verdict on a call, as a fact about the latches it finds. -/
def Passes (env : SafetyEnvelope) (s : SafetyState) (c : ToolCall) : Prop :=
  ∃ d, gate c.name c.args env s = .ok d ∧ d.allow = true

theorem commit_all (c : ToolCall) : (commit c).All fun op => op.storesLatch := by
  unfold commit
  split
  · refine .bind (by simp) fun confirmed => ?_
    cases confirmed
    · trivial
    · exact ⟨rfl, fun _ => trivial⟩
  · split
    · exact ⟨rfl, fun _ => ⟨rfl, fun _ => trivial⟩⟩
    · trivial

/-- Past the gate: dispatch, and the commit of a success. -/
def finish (ctx : FlightCtx) (c : ToolCall) : Code ToolResult := do
  let result ← dispatch c ctx
  if result.ok then
    commit c
    return result
  return result

theorem serve_run (env : SafetyEnvelope) (ctx : FlightCtx) (c : ToolCall) :
    ∃ reads, (serve env ctx c).run o.answer s =
      (match gate c.name c.args env s with
      | .error e => ⟨reads, s, .error e⟩
      | .ok d =>
        if d.allow then
          { (finish ctx c).run o.answer s with
            performed := reads ++ ((finish ctx c).run o.answer s).performed }
        else ⟨reads, s, .ok { requestId := c.requestId, error := "safety_denied: " ++ d.reason }⟩) ∧
      ∀ op ∈ reads, op.readsLatch := by
  obtain ⟨reads, checked, latches⟩ := checkTool_run o s c.name c.args env
  refine ⟨reads, ?_, latches⟩
  have shape : serve env ctx c = checkTool c.name c.args env >>= fun d =>
      if !d.allow then
        pure { requestId := c.requestId, error := "safety_denied: " ++ d.reason }
      else finish ctx c := rfl
  rw [shape, Program.run_bind, checked]
  cases gate c.name c.args env s with
  | error e => simp [Program.Outcome.andThen]
  | ok d => cases allowed : d.allow <;> simp [Program.Outcome.andThen, allowed]

theorem finish_command_iff (ctx : FlightCtx) (c : ToolCall) {op : Op} (command : op.isCommand) :
    op ∈ ((finish ctx c).run o.answer s).performed ↔
      op ∈ ((dispatch c ctx).run o.answer s).performed := by
  have notStored : op.storesLatch = false := by cases op <;> first | rfl | cases command
  unfold finish
  rw [Program.run_bind]
  unfold Program.Outcome.andThen
  generalize (dispatch c ctx).run o.answer s = first
  obtain ⟨performed, s', result⟩ := first
  cases result with
  | error e => rfl
  | ok result =>
    cases accepted : result.ok with
    | false => simp [accepted]
    | true =>
      have stores : (commit c >>= fun _ => (pure result : Code ToolResult)).All (·.storesLatch) :=
        (commit_all c).bind fun _ => trivial
      simp only [accepted, if_true, List.mem_append, or_iff_left_iff_imp]
      intro member
      have stored := stores.performed o.answer s' op member
      rw [notStored] at stored
      cases stored

/-- A command method runs iff the call passes the gate and its handler runs it. -/
theorem serve_command_iff (env : SafetyEnvelope) (ctx : FlightCtx) (c : ToolCall) {op : Op}
    (command : op.isCommand) :
    op ∈ ((serve env ctx c).run o.answer s).performed ↔
      Passes env s c ∧ op ∈ ((dispatch c ctx).run o.answer s).performed := by
  obtain ⟨reads, served, latches⟩ := serve_run o s env ctx c
  have notRead : op ∉ reads := by
    intro member
    have read := latches op member
    cases op <;> simp_all [Op.readsLatch, Op.isCommand]
  rw [served, ← finish_command_iff o s ctx c command]
  unfold Passes
  cases gate c.name c.args env s with
  | error e => simp [notRead]
  | ok d => cases allowed : d.allow <;> simp [notRead, allowed]

end Lexaire.Bridge
