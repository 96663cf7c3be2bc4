import Lexaire.Bridge.Commands

/-! The phases of a request. It moves the spoken-arm latch only in the step after
an accepted arm or disarm, and whatever it does elsewhere leaves the arm state
and this latch alone. A residual program tells by its shape which phase it is in. -/
namespace Lexaire.Bridge
open Atomic

/-- Everything a request does besides moving the arm state and its latch. -/
def Op.plain : Op → Bool
  | .action .arm | .action .disarm | .storeArmedWithVoice _ => false
  | _ => true

/-- The store that follows an accepted spoken arm. -/
def Commits (p : Code ToolResult) : Prop :=
  ∃ next : Unit → Code ToolResult, p = .step (.storeArmedWithVoice true) next ∧
    ∀ u, (next u).All (·.plain = true)

/-- The stores that follow an accepted disarm. -/
def Clears (p : Code ToolResult) : Prop :=
  ∃ next : Unit → Code ToolResult, p = .step (.storeArmedWithVoice false) next ∧
    ∀ u, (next u).All (·.plain = true)

/-- A request that has not reached its arm or disarm: what that command's
answer leads to is the commit, and nothing but plain operations besides. -/
def Orderly (confirmed : Prop) : Code ToolResult → Prop
  | .done _ => True
  | .raise _ => True
  | .step (.action .arm) next => ∀ r,
    (r = .success ∧ confirmed → Commits (next r)) ∧
      (¬ (r = .success ∧ confirmed) → (next r).All (·.plain = true))
  | .step (.action .disarm) next => ∀ r,
    (r = .success → Clears (next r)) ∧ (r ≠ .success → (next r).All (·.plain = true))
  | .step (.storeArmedWithVoice _) _ => False
  | .step _ next => ∀ r, Orderly confirmed (next r)

namespace Orderly
variable {confirmed : Prop}

theorem of_plain {op : Op} {next : op.Answer → Code ToolResult} (plain : op.plain = true)
    (rest : ∀ r, Orderly confirmed (next r)) : Orderly confirmed (.step op next) := by
  cases op with
  | action a => cases a <;> first | exact rest | cases plain
  | storeArmedWithVoice b => cases plain
  | _ => exact rest

theorem plain_next {op : Op} {next : op.Answer → Code ToolResult} (plain : op.plain = true)
    (orderly : Orderly confirmed (.step op next)) (r : op.Answer) : Orderly confirmed (next r) := by
  cases op with
  | action a => cases a <;> first | exact orderly r | cases plain
  | storeArmedWithVoice b => cases plain
  | _ => exact orderly r

theorem of_all {p : Code ToolResult} (all : p.All (·.plain = true)) : Orderly confirmed p := by
  induction p with
  | done a => trivial
  | raise e => trivial
  | step op next ih => exact .of_plain all.1 fun r => ih r (all.2 r)

theorem bind {α : Type} {p : Code α} {f : α → Code ToolResult} (first : p.All (·.plain = true))
    (rest : ∀ a, Orderly confirmed (f a)) : Orderly confirmed (p >>= f) := by
  induction p with
  | done a => exact rest a
  | raise e => trivial
  | step op next ih => exact .of_plain first.1 fun r => ih r (first.2 r)

theorem commits_catching {p : Code ToolResult} {h : String → Code ToolResult} (commits : Commits p)
    (handler : ∀ e, (h e).All (·.plain = true)) : Commits (p.catching h) := by
  obtain ⟨next, rfl, plain⟩ := commits
  exact ⟨_, rfl, fun u => (plain u).catching handler⟩

theorem clears_catching {p : Code ToolResult} {h : String → Code ToolResult} (clears : Clears p)
    (handler : ∀ e, (h e).All (·.plain = true)) : Clears (p.catching h) := by
  obtain ⟨next, rfl, plain⟩ := clears
  exact ⟨_, rfl, fun u => (plain u).catching handler⟩

theorem catching {p : Code ToolResult} {h : String → Code ToolResult}
    (body : Orderly confirmed p) (handler : ∀ e, (h e).All (·.plain = true)) :
    Orderly confirmed (p.catching h) := by
  induction p with
  | done a => trivial
  | raise e => exact .of_all (handler e)
  | step op next ih =>
    by_cases plain : op.plain = true
    · exact .of_plain plain fun r => ih r (body.plain_next plain r)
    · cases op with
      | action a =>
        cases a with
        | arm =>
          exact fun r => ⟨fun accepted => commits_catching ((body r).1 accepted) handler,
            fun other => ((body r).2 other).catching handler⟩
        | disarm =>
          exact fun r => ⟨fun accepted => clears_catching ((body r).1 accepted) handler,
            fun other => ((body r).2 other).catching handler⟩
        | _ => exact absurd rfl plain
      | storeArmedWithVoice b => cases body
      | _ => exact absurd rfl plain

end Orderly

theorem reads_plain {op : Op} (read : op.readsLatch = true) : op.plain = true := by
  cases op <;> first | rfl | cases read

/-- The arguments of an arm call confirm it. -/
def ToolCall.Confirmed (c : ToolCall) : Prop :=
  c.name = "arm" ∧ c.args.valueBool "voice_confirmed" false = .ok true

/-- The tree of an argument-less Action tool past the gate. -/
theorem finish_action (ctx : FlightCtx) (c : ToolCall) {command : ActionCommand}
    (handler : dispatch c ctx = callActionMethod c ctx (action command)) :
    finish ctx c = if !ctx.action then pure (err c.requestId "action_not_initialized")
      else .step (.action command) fun r =>
        if r = .success then commit c >>= fun _ => pure (ok c.requestId)
        else pure (err c.requestId (actionResultToString r)) := by
  unfold finish
  rw [handler, callActionMethod]
  cases ctx.action with
  | false => simp [err]
  | true =>
    simp only [Bool.not_true, Bool.false_eq_true, if_false, action_bind, Program.step_bind,
      Program.pure_eq, Program.done_bind]
    congr 1
    funext r
    by_cases accepted : r = .success <;> simp [actionReply, accepted, ok, err]

theorem finish_arm_orderly (ctx : FlightCtx) (c : ToolCall) (arm : c.name = "arm") :
    Orderly c.Confirmed (finish ctx c) := by
  have handler : dispatch c ctx = callActionMethod c ctx (action .arm) := by
    simp only [dispatch, handlers, arm]
    rfl
  rw [finish_action ctx c handler]
  cases ctx.action with
  | false => trivial
  | true =>
    refine fun r => ⟨?_, fun other => ?_⟩
    · rintro ⟨rfl, _, confirmed⟩
      refine ⟨fun _ => pure (ok c.requestId), ?_, fun _ => trivial⟩
      simp [commit, arm, confirmed]
    · by_cases accepted : r = .success
      · simp only [accepted, if_true, commit, arm, beq_self_eq_true]
        cases read : c.args.valueBool "voice_confirmed" false with
        | error e => trivial
        | ok confirmed =>
          cases confirmed with
          | false => trivial
          | true => exact absurd ⟨accepted, arm, read⟩ other
      · simp [accepted]

theorem finish_disarm_orderly (ctx : FlightCtx) (c : ToolCall) (disarm : c.name = "disarm") :
    Orderly c.Confirmed (finish ctx c) := by
  have handler : dispatch c ctx = callActionMethod c ctx (action .disarm) := by
    simp only [dispatch, handlers, disarm]
    rfl
  rw [finish_action ctx c handler]
  cases ctx.action with
  | false => trivial
  | true =>
    refine fun r => ⟨?_, fun other => ?_⟩
    · rintro rfl
      refine ⟨fun _ => .step (.storeAborted false) fun _ => pure (ok c.requestId), ?_,
        fun _ => ⟨rfl, fun _ => trivial⟩⟩
      simp [commit, disarm, storeAborted, Program.perform]
    · simp [other]

theorem finish_other_plain (ctx : FlightCtx) (c : ToolCall) (notArm : c.name ≠ "arm")
    (notDisarm : c.name ≠ "disarm") : (finish ctx c).All (·.plain = true) := by
  refine .bind ((dispatch_all c ctx).mono fun op asked => ?_) fun result => ?_
  · cases op with
    | action a => cases a <;> simp_all [Op.ofTool, Op.plain]
    | storeArmedWithVoice b => cases asked
    | _ => rfl
  · simp [commit, notArm, notDisarm]

theorem serve_orderly (env : SafetyEnvelope) (ctx : FlightCtx) (c : ToolCall) :
    Orderly c.Confirmed (serve env ctx c) := by
  have shape : serve env ctx c = checkTool c.name c.args env >>= fun d =>
      if !d.allow then
        pure { requestId := c.requestId, error := "safety_denied: " ++ d.reason }
      else finish ctx c := rfl
  rw [shape]
  refine .bind ((checkTool_all _ _ _).mono fun _ => reads_plain) fun d => ?_
  cases d.allow with
  | false => trivial
  | true =>
    by_cases arm : c.name = "arm"
    · exact finish_arm_orderly ctx c arm
    · by_cases disarm : c.name = "disarm"
      · exact finish_disarm_orderly ctx c disarm
      · exact .of_all (finish_other_plain ctx c arm disarm)

/-- A raw request confirms an arm when it parses to a call that does. -/
def Parsed.Confirmed (request : Parsed) : Prop :=
  ∃ c, request.get.bind ToolCall.fromJson = .ok c ∧ c.Confirmed

theorem handle_orderly (env : SafetyEnvelope) (ctx : FlightCtx) (request : Parsed) :
    Orderly request.Confirmed (handle env ctx request) := by
  refine .catching ?_ fun _ => trivial
  cases read : request.get with
  | error e => trivial
  | ok j =>
    cases called : ToolCall.fromJson j with
    | error e =>
      simp only [Program.ofExcept_ok, Program.done_bind, called]
      trivial
    | ok c =>
      have same : request.Confirmed ↔ c.Confirmed := by
        simp [Parsed.Confirmed, read, Except.bind, called]
      rw [same]
      simp only [Program.ofExcept_ok, Program.done_bind, called]
      exact serve_orderly env ctx c

end Lexaire.Bridge
