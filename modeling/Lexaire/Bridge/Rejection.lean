import Lexaire.Core.Text
import Lexaire.Bridge.Commands

/-! Rejected requests. A handler that has asked the vehicle for anything never
answers with the text of a rejection, so a rejection means that nothing was done
with one exception: the commit after an accepted arm reads `voice_confirmed`
again, and when the gate had no need to read it, that read may be the first. -/
namespace Lexaire.Bridge
open Atomic Text

/-- How the error of a refused request begins. -/
def rejections : List String := ["bad_request:", "safety_denied:", "unknown_tool:", "missing", "wrong_type:"]

def rejects (error : String) : Bool := rejections.any (startsWith · error)

/-- A reply as the client sees it. -/
def Rejected (reply : Json) : Prop :=
  reply.find? "ok" = some (.boolean false) ∧
    ∃ error, reply.find? "error" = some (.string error) ∧ rejects error = true

/-- Neither a command to the vehicle nor a store to a latch. -/
def Op.quiet (op : Op) : Bool := !op.acts && !op.storesLatch

/-- A request that changed nothing. -/
structure Effectless {α : Type} (s : SafetyState) (out : Program.Outcome Op SafetyState String α) :
    Prop where
  quiet : ∀ op ∈ out.performed, op.acts = false ∧ op.storesLatch = false
  latches : out.state = s

variable (o : Outside) (s : SafetyState)

theorem run_state_of_quiet {α : Type} (p : Code α)
    (quiet : ∀ op ∈ (p.run o.answer s).performed, op.quiet = true) :
    (p.run o.answer s).state = s := by
  induction p generalizing s with
  | done a => rfl
  | raise e => rfl
  | step op next ih =>
    simp only [Program.run_step, List.mem_cons, forall_eq_or_imp] at quiet ⊢
    have unchanged : (o.answer op s).2 = s := by
      have silent := quiet.1
      cases op <;> first | rfl | cases silent
    rw [unchanged] at quiet ⊢
    exact ih _ s quiet.2

theorem Effectless.of_quiet {α : Type} (p : Code α)
    (quiet : ∀ op ∈ (p.run o.answer s).performed, op.quiet = true) :
    Effectless s (p.run o.answer s) := by
  refine ⟨fun op member => ?_, run_state_of_quiet o s p quiet⟩
  simpa [Op.quiet] using quiet op member

/-- How a handler that has acted may end. -/
def Answers : Except String ToolResult → Prop
  | .ok r => rejects r.error = false
  | .error _ => False

theorem rejects_success : rejects "" = false := by decide

theorem rejects_actionReply (requestId : String) (r : ActionResult) :
    rejects (actionReply requestId r).error = false := by
  have text : rejects (actionResultToString r) = false := by cases r <;> decide
  unfold actionReply
  split
  · exact rejects_success
  · exact text

theorem rejects_offboardReply (requestId : String) (r : OffboardResult) :
    rejects (offboardReply requestId r).error = false := by
  have text : rejects (offboardResultToString r) = false := by cases r <;> decide
  unfold offboardReply
  split
  · exact rejects_success
  · exact text

theorem rejects_paramSetReply (requestId : String) (r : ParamResult) :
    rejects (paramSetReply requestId r).error = false := by
  have text : rejects ("param_set_failed:" ++ paramResultToString r) = false := by
    cases r <;> decide
  unfold paramSetReply
  split
  · exact rejects_success
  · exact text

theorem rejects_offboardStartFailed (r : OffboardResult) :
    rejects ("offboard_start_failed:" ++ offboardResultToString r) = false := by
  cases r <;> decide

abbrev HandlerCommits (p : Code ToolResult) : Prop := p.Committed (·.quiet = true) Answers

@[simp] theorem withArg_commits {α : Type} {requestId : String} {arg : Except String α}
    {rest : α → Code ToolResult} :
    HandlerCommits (withArg requestId arg rest) ↔ ∀ x, arg = .ok x → HandlerCommits (rest x) := by
  cases arg <;> simp [withArg]

theorem callActionMethod_commits (c : ToolCall) (ctx : FlightCtx) (command : ActionCommand) :
    HandlerCommits (callActionMethod c ctx (action command)) := by
  simp only [callActionMethod, Program.committed_ite]
  exact ⟨fun _ => trivial, fun _ => .of_ends fun r => rejects_actionReply c.requestId r⟩

theorem handleTakeoff_commits (c : ToolCall) (ctx : FlightCtx) :
    HandlerCommits (handleTakeoff c ctx) := by
  simp only [handleTakeoff, withArg_commits, Program.committed_ite]
  intro altitude _
  exact ⟨fun _ => trivial, fun _ => .of_ends fun _ r => rejects_actionReply c.requestId r⟩

theorem handleGotoNed_commits (c : ToolCall) (ctx : FlightCtx) :
    HandlerCommits (handleGotoNed c ctx) := by
  simp only [handleGotoNed, withArg_commits, Program.committed_ite]
  intro n _ e _ d _ yaw _
  refine ⟨fun _ => trivial, fun _ => .bind (setpointYawDeg_all ctx yaw rfl) fun yawDeg => ?_⟩
  exact .of_ends fun _ r => rejects_offboardReply c.requestId r

theorem handleSetVelocityNed_commits (c : ToolCall) (ctx : FlightCtx) :
    HandlerCommits (handleSetVelocityNed c ctx) := by
  simp only [handleSetVelocityNed, withArg_commits, Program.committed_ite]
  intro vx _ vy _ vz _
  refine ⟨fun _ => trivial, fun _ yaw _ => ⟨fun _ => trivial, fun _ => ?_⟩⟩
  refine .bind (setpointYawDeg_all ctx yaw rfl) fun yawDeg => ?_
  exact .of_ends fun _ r => rejects_offboardReply c.requestId r

/-- Whatever `in_air` answers, both end in the reply to their command. -/
theorem latchAbort_ends (ctx : FlightCtx) {rest : Unit → Code ToolResult}
    (ends : (rest ()).Ends Answers) : (latchAbort ctx >>= rest).Ends Answers := by
  unfold latchAbort readInAir
  cases ctx.telemetry with
  | false => simpa using ends
  | true =>
    intro flying
    cases flying <;> cases ctx.safety <;> first | exact ends | exact fun _ => ends

theorem handleAbort_commits (c : ToolCall) (ctx : FlightCtx) :
    HandlerCommits (handleAbort c ctx) := by
  simp only [handleAbort, Program.committed_ite]
  refine ⟨fun _ => trivial, fun _ => .of_ends (latchAbort_ends ctx fun r => ?_)⟩
  exact rejects_actionReply c.requestId r

theorem handleKill_commits (c : ToolCall) (ctx : FlightCtx) :
    HandlerCommits (handleKill c ctx) := by
  simp only [handleKill, Program.committed_ite]
  refine ⟨fun _ => trivial, fun _ => .of_ends (latchAbort_ends ctx fun r => ?_)⟩
  exact rejects_actionReply c.requestId r

theorem handleSetParam_commits (c : ToolCall) (ctx : FlightCtx) :
    HandlerCommits (handleSetParam c ctx) := by
  refine .bind (by simp) fun name => ?_
  simp only [Program.committed_ite, withArg_commits]
  refine ⟨fun _ => trivial, fun _ => ⟨fun _ => trivial, fun _ => ⟨fun _ v _ => ?_, fun _ => ?_⟩⟩⟩
  · refine .bind (castInt_all v rfl) fun iv => .of_ends fun r => ?_
    exact rejects_paramSetReply c.requestId r
  · refine ⟨fun _ v _ => .of_ends fun r => ?_, fun _ => trivial⟩
    exact rejects_paramSetReply c.requestId r

theorem handleGetParam_commits (c : ToolCall) (ctx : FlightCtx) :
    HandlerCommits (handleGetParam c ctx) := by
  refine .of_all (.bind (by simp) fun name => ?_)
  simp [Op.quiet, Op.acts, Op.storesLatch]

theorem handleGetHealth_commits (c : ToolCall) (ctx : FlightCtx) :
    HandlerCommits (handleGetHealth c ctx) := by
  apply Program.Committed.of_all
  simp [handleGetHealth, Op.quiet, Op.acts, Op.isCommand, Op.storesLatch]

theorem handleEnableOffboard_commits (c : ToolCall) (ctx : FlightCtx) :
    HandlerCommits (handleEnableOffboard c ctx) := by
  simp only [handleEnableOffboard, Program.committed_ite]
  refine ⟨fun _ => trivial, fun _ => .of_ends fun _ r => ?_⟩
  change Program.Ends Answers (if r = .success ∨ r = .busy then _ else _)
  rw [Program.ends_ite]
  exact ⟨fun _ => rejects_success, fun _ => rejects_offboardStartFailed r⟩

theorem handlers_commit : ∀ entry ∈ handlers, ∀ c ctx, HandlerCommits (entry.2 c ctx) := by
  simp only [handlers, List.forall_mem_cons]
  refine ⟨?_, ?_, handleTakeoff_commits, ?_, ?_, ?_, handleGotoNed_commits,
    handleSetVelocityNed_commits, handleAbort_commits, handleKill_commits, handleSetParam_commits,
    handleGetParam_commits, handleGetHealth_commits, handleEnableOffboard_commits, by simp⟩
  all_goals exact fun c ctx => callActionMethod_commits c ctx _

theorem dispatch_commits (c : ToolCall) (ctx : FlightCtx) : HandlerCommits (dispatch c ctx) := by
  unfold dispatch
  cases found : handlers.lookup c.name with
  | none => trivial
  | some handler => exact handlers_commit _ (mem_handlers found) c ctx

/-- The shape of a request that is past the gate, by how its handler ended. -/
theorem finish_run (ctx : FlightCtx) (c : ToolCall) :
    let first := (dispatch c ctx).run o.answer s
    (finish ctx c).run o.answer s =
      match first.result with
      | .error e => { first with result := .error e }
      | .ok r =>
        if r.ok then
          let rest := (commit c).run o.answer first.state
          ⟨first.performed ++ rest.performed, rest.state, rest.result.map fun _ => r⟩
        else first := by
  intro first
  have shape : finish ctx c = dispatch c ctx >>= fun r =>
      if r.ok then commit c >>= fun _ => pure r else pure r := rfl
  rw [shape, Program.run_bind]
  change Program.Outcome.andThen first _ = _
  obtain ⟨performed, s', result⟩ := first
  cases result with
  | error e => rfl
  | ok r =>
    cases accepted : r.ok with
    | false => simp [Program.Outcome.andThen, accepted]
    | true =>
      simp only [Program.Outcome.andThen, accepted, if_true, Program.run_bind]
      generalize (commit c).run o.answer s' = rest
      obtain ⟨stored, s'', ended⟩ := rest
      cases ended <;> simp [Except.map]

/-- The commit throws only where an arm's `voice_confirmed` cannot be read. -/
theorem commit_raises_iff (c : ToolCall) (what : String) :
    ((commit c).run o.answer s).result = .error what ↔
      c.name = "arm" ∧ c.args.valueBool "voice_confirmed" false = .error what := by
  unfold commit
  by_cases arm : c.name = "arm"
  · cases c.args.valueBool "voice_confirmed" false with
    | error e => simp [arm]
    | ok confirmed => cases confirmed <;> simp [arm, storeArmedWithVoice, Program.perform]
  · by_cases disarm : c.name = "disarm" <;>
      simp [disarm, arm, storeArmedWithVoice, storeAborted, Program.perform]

/-- An arm that passes the gate without a look at its arguments and is accepted
by the vehicle, with arguments whose `voice_confirmed` cannot be read. -/
structure ArmsThenThrows (env : SafetyEnvelope) (ctx : FlightCtx) (c : ToolCall) (o : Outside)
    (s : SafetyState) (what : String) : Prop where
  tool : c.name = "arm"
  ready : ctx.action = true
  notAborted : s.aborted = false
  unread : env.requireSpokenArm = true → s.armedWithVoice = true
  accepted : o.action .arm = .success
  unreadable : c.args.valueBool "voice_confirmed" false = .error what

variable {env : SafetyEnvelope} {ctx : FlightCtx} {c : ToolCall} {what : String}

theorem passes_arm_unread (tool : c.name = "arm")
    (unreadable : c.args.valueBool "voice_confirmed" false = .error what) :
    Passes env s c ↔ s.aborted = false ∧ (env.requireSpokenArm = true → s.armedWithVoice = true) := by
  unfold Passes gate
  rw [tool, unreadable]
  cases s.aborted <;> cases env.requireSpokenArm <;> cases s.armedWithVoice <;>
    simp [isEmergencyFollowup, checkLimits, Except.map]

theorem dispatch_arm_run (tool : c.name = "arm") (ready : ctx.action = true) :
    (dispatch c ctx).run o.answer s =
      ⟨[.action .arm], s, .ok (actionReply c.requestId (o.action .arm))⟩ := by
  simp [dispatch, handlers, tool, handleArm, callActionMethod, ready]

theorem dispatch_arm_ok (tool : c.name = "arm") {r : ToolResult}
    (replied : ((dispatch c ctx).run o.answer s).result = .ok r) (accepted : r.ok = true) :
    ctx.action = true ∧ o.action .arm = .success := by
  by_cases ready : ctx.action = true
  · refine ⟨ready, ?_⟩
    rw [dispatch_arm_run o s tool ready] at replied
    obtain rfl := Except.ok.inj replied
    by_cases success : o.action .arm = .success
    · exact success
    · simp [actionReply, success, err] at accepted
  · have reply : ((dispatch c ctx).run o.answer s).result =
        .ok (err c.requestId "action_not_initialized") := by
      simp [dispatch, handlers, tool, handleArm, callActionMethod, ready]
    obtain rfl := Except.ok.inj (reply.symm.trans replied)
    cases accepted

/-- The ways a request can end that the loop answers with a rejection. -/
def Refused : Except String ToolResult → Prop
  | .ok r => r.ok = false ∧ rejects r.error = true
  | .error _ => True

theorem readsLatch_quiet {op : Op} (read : op.readsLatch = true) : op.quiet = true := by
  cases op <;> first | rfl | cases read

theorem finish_refused_quiet (passes : Passes env s c)
    (sane : ∀ what, ¬ ArmsThenThrows env ctx c o s what)
    (refused : Refused ((finish ctx c).run o.answer s).result) :
    ∀ op ∈ ((finish ctx c).run o.answer s).performed, op.quiet = true := by
  have commits := (dispatch_commits c ctx).run o.answer s
  have finished := finish_run o s ctx c
  cases dispatched : ((dispatch c ctx).run o.answer s).result with
  | error e =>
    simp only [dispatched] at finished
    rw [finished]
    exact commits (by simp [dispatched, Answers])
  | ok r =>
    cases accepted : r.ok with
    | false =>
      simp only [dispatched, accepted, Bool.false_eq_true, if_false] at finished
      rw [finished] at refused ⊢
      rw [dispatched] at refused
      exact commits (by simp [dispatched, Answers, refused.2])
    | true =>
      simp only [dispatched, accepted, if_true] at finished
      cases stored : ((commit c).run o.answer ((dispatch c ctx).run o.answer s).state).result with
      | ok u =>
        rw [finished, stored] at refused
        exact absurd refused.1 (by simp [accepted])
      | error what =>
        obtain ⟨tool, unreadable⟩ := (commit_raises_iff o _ c what).mp stored
        obtain ⟨notAborted, unread⟩ := (passes_arm_unread s tool unreadable).mp passes
        obtain ⟨ready, armed⟩ := dispatch_arm_ok o s tool dispatched accepted
        exact absurd ⟨tool, ready, notAborted, unread, armed, unreadable⟩ (sane what)

theorem serve_refused_quiet (sane : ∀ what, ¬ ArmsThenThrows env ctx c o s what)
    (refused : Refused ((serve env ctx c).run o.answer s).result) :
    ∀ op ∈ ((serve env ctx c).run o.answer s).performed, op.quiet = true := by
  obtain ⟨reads, served, latches⟩ := serve_run o s env ctx c
  have quiet : ∀ op ∈ reads, op.quiet = true := fun op member => readsLatch_quiet (latches op member)
  cases decided : gate c.name c.args env s with
  | error e =>
    rw [decided] at served
    rw [served]
    exact quiet
  | ok d =>
    cases allowed : d.allow with
    | false =>
      simp only [decided, allowed, Bool.false_eq_true, if_false] at served
      rw [served]
      exact quiet
    | true =>
      simp only [decided, allowed, if_true] at served
      rw [served] at refused ⊢
      intro op member
      rcases List.mem_append.mp member with read | done
      · exact quiet op read
      · exact finish_refused_quiet o s ⟨d, decided, allowed⟩ sane refused op done

theorem serve_throws (throws : ArmsThenThrows env ctx c o s what) :
    ((serve env ctx c).run o.answer s).result = .error what ∧
      Op.action .arm ∈ ((serve env ctx c).run o.answer s).performed := by
  obtain ⟨reads, served, _⟩ := serve_run o s env ctx c
  obtain ⟨d, decided, allowed⟩ := (passes_arm_unread s throws.tool throws.unreadable).mpr
    ⟨throws.notAborted, throws.unread⟩
  have dispatched := dispatch_arm_run o s throws.tool throws.ready
  have stored := (commit_raises_iff o s c what).mpr ⟨throws.tool, throws.unreadable⟩
  have finished := finish_run o s ctx c
  simp only [dispatched, throws.accepted, actionReply, if_true, ok] at finished
  simp only [decided, allowed, if_true] at served
  rw [served, finished]
  simp [stored, Except.map]

theorem rejected_toJson_iff (r : ToolResult) :
    Rejected r.toJson ↔ r.ok = false ∧ rejects r.error = true := by
  by_cases silent : r.error = ""
  · simp [Rejected, silent, rejects_success]
  · simp [Rejected, silent]

theorem rejected_badRequest (what : String) : Rejected (badRequest what).toJson := by
  rw [rejected_toJson_iff]
  simp [badRequest, rejects, rejections, startsWith, String.toList_append]

/-- The request as the handlers see it, when the bytes and the call parse. -/
def Parsed.Call (parsed : Parsed) (c : ToolCall) : Prop :=
  ∃ j, parsed = .value j ∧ ToolCall.fromJson j = .ok c

theorem handle_unparsed_run (env : SafetyEnvelope) (ctx : FlightCtx) {parsed : Parsed}
    (unparsed : ∀ c, ¬ parsed.Call c) :
    ∃ what, (handle env ctx parsed).run o.answer s = ⟨[], s, .ok (badRequest what)⟩ := by
  cases parsed with
  | failed what utf8 => exact ⟨what, rfl⟩
  | value j =>
    cases read : ToolCall.fromJson j with
    | error what => exact ⟨what, by simp [handle, Parsed.get, read]⟩
    | ok c => exact absurd ⟨j, rfl, read⟩ (unparsed c)

theorem handle_call_run (env : SafetyEnvelope) (ctx : FlightCtx) {parsed : Parsed}
    (call : parsed.Call c) :
    (handle env ctx parsed).run o.answer s =
      { (serve env ctx c).run o.answer s with
        result := match ((serve env ctx c).run o.answer s).result with
          | .ok r => .ok r
          | .error what => .ok (badRequest what) } := by
  obtain ⟨j, rfl, read⟩ := call
  have shape : handle env ctx (.value j) =
      (serve env ctx c).catching fun what => pure (badRequest what) := by
    simp [handle, Parsed.get, read]
  rw [shape, Program.run_catching]
  generalize (serve env ctx c).run o.answer s = out
  obtain ⟨performed, s', result⟩ := out
  cases result <;> simp

/-- A rejected request has no effect, except for an arm that throws in the commit. -/
theorem rejected_effectless_iff (env : SafetyEnvelope) (ctx : FlightCtx) (parsed : Parsed)
    (o : Outside) (s : SafetyState) :
    (∃ r, ((handle env ctx parsed).run o.answer s).result = .ok r ∧
      (Rejected (reply parsed r) → Effectless s ((handle env ctx parsed).run o.answer s))) ↔
    ¬ ∃ c what, parsed.Call c ∧ ArmsThenThrows env ctx c o s what := by
  constructor
  · rintro ⟨r, replied, property⟩ ⟨c, what, call, throws⟩
    have ran := handle_call_run o s env ctx call
    obtain ⟨thrown, armed⟩ := serve_throws o s throws
    rw [ran, thrown] at replied
    obtain rfl := Except.ok.inj replied
    obtain ⟨j, rfl, _⟩ := call
    have effectless := property (rejected_badRequest what)
    rw [ran] at effectless
    exact absurd (effectless.quiet _ armed).1 (by simp [Op.acts, Op.isCommand])
  · intro sane
    by_cases called : ∃ c, parsed.Call c
    · obtain ⟨c, call⟩ := called
      have ran := handle_call_run o s env ctx call
      have quiet (refused : Refused ((serve env ctx c).run o.answer s).result) :
          Effectless s ((serve env ctx c).run o.answer s) :=
        .of_quiet o s _ (serve_refused_quiet o s
          (fun what throws => sane ⟨c, what, call, throws⟩) refused)
      rw [ran]
      cases ended : ((serve env ctx c).run o.answer s).result with
      | error what =>
        have effectless := quiet (by rw [ended]; trivial)
        exact ⟨_, rfl, fun _ => ⟨effectless.quiet, effectless.latches⟩⟩
      | ok r =>
        refine ⟨r, rfl, fun rejected => ?_⟩
        obtain ⟨j, rfl, _⟩ := call
        have effectless := quiet (by rw [ended]; exact (rejected_toJson_iff r).mp rejected)
        exact ⟨effectless.quiet, effectless.latches⟩
    · obtain ⟨what, ran⟩ := handle_unparsed_run o s env ctx (not_exists.mp called)
      exact ⟨_, by rw [ran], fun _ => by rw [ran]; exact ⟨by simp, rfl⟩⟩

/-- `{"name": "arm", "args": null}` where no spoken arm is required: armed, and
answered with `bad_request`. -/
theorem null_args_arm_rejected :
    let out := (handle { requireSpokenArm := false } {}
      (.value (.object [("name", .string "arm"), ("args", .null)]))).run Outside.nominal.answer {}
    (∃ r, out.result = .ok r ∧ Rejected (reply
        (.value (.object [("name", .string "arm"), ("args", .null)])) r)) ∧
      Op.action .arm ∈ out.performed := by
  have throws : ArmsThenThrows { requireSpokenArm := false } {} ⟨"", "arm", .null⟩ .nominal {}
      "[json.exception.type_error.306] cannot use value() with null" :=
    ⟨rfl, rfl, rfl, by simp, rfl, rfl⟩
  have call : (Parsed.value (.object [("name", .string "arm"), ("args", .null)])).Call
      ⟨"", "arm", .null⟩ := ⟨_, rfl, rfl⟩
  have ran := handle_call_run .nominal {} { requireSpokenArm := false } {} call
  obtain ⟨thrown, armed⟩ := serve_throws _ _ throws
  intro out
  simp only [out, ran, thrown]
  exact ⟨⟨_, rfl, rejected_badRequest _⟩, armed⟩

end Lexaire.Bridge
