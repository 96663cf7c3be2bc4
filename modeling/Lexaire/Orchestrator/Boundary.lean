import Lexaire.Bridge.Results
import Lexaire.Orchestrator.Audit
import Lexaire.Orchestrator.BridgeLoss

/-! Success and failure across the REQ/REP boundary. What the bridge encodes is
decoded as a success without an error or a failure with one, and a mission that ends
as `terminal:t` ends with a call of `t` that the vehicle has accepted. -/
namespace Lexaire.Orchestrator
open Atomic Transition Text Lexaire.Bridge Op

/-- A decoded result with the text of its failure. -/
def Telling (result : ToolResult) : Prop :=
  Sane result ∧ ∀ text, result.error = .string text → tells text = true

theorem telling_toJson {r : Bridge.ToolResult} (tc : ToolCall) (succeeded : r.ok = true → r.error = "")
    (failed : r.ok = false → tells r.error = true) : Telling (ToolResult.ofReply tc r.toJson) := by
  obtain ⟨id, ok, error, data⟩ := r
  cases ok with
  | true =>
    obtain rfl : error = "" := succeeded rfl
    exact ⟨⟨fun _ => rfl, fun refused => (by cases refused)⟩, fun text other => by cases other⟩
  | false =>
    have text : tells error = true := failed rfl
    have some_text : error ≠ "" := by
      rintro rfl
      cases text
    have told : (ToolResult.ofReply tc (Bridge.ToolResult.toJson ⟨id, false, error, data⟩)).error =
        .string error := by simp [ToolResult.ofReply, some_text]
    refine ⟨⟨fun accepted => (by cases accepted), fun _ => ⟨error, some_text, told⟩⟩, ?_⟩
    intro text' same
    obtain rfl := Json.string.inj (told.symm.trans same)
    exact text

theorem telling_failure (tc : ToolCall) {text : String} (told : tells text = true) :
    Telling (failure tc text) := by
  have some_text : text ≠ "" := by
    rintro rfl
    cases told
  refine ⟨⟨fun accepted => (by cases accepted), fun _ => ⟨text, some_text, rfl⟩⟩, ?_⟩
  intro text' same
  obtain rfl := Json.string.inj same
  exact told

theorem telling_badRequest (tc : ToolCall) (what : String) :
    Telling (ToolResult.ofReply tc (badRequest what).toJson) :=
  telling_toJson tc (fun accepted => (by cases accepted)) fun _ => tells_append (by decide) what

/-- However the bridge comes to its reply, other threads included. -/
theorem handle_telling (env : SafetyEnvelope) (ctx : FlightCtx) (parsed : Parsed) (tc : ToolCall) :
    (handle env ctx parsed).Ends fun result =>
      ∃ r, result = .ok r ∧ Telling (ToolResult.ofReply tc (reply parsed r)) := by
  cases parsed with
  | failed what utf8 =>
    refine ⟨badRequest what, rfl, ?_⟩
    cases utf8 with
    | true => exact telling_badRequest tc what
    | false =>
      have told : tells "internal_serialize_failed" = true := by decide
      exact telling_failure tc told
  | value j =>
    have body : (Program.ofExcept (Bridge.ToolCall.fromJson j) >>= serve env ctx).Ends
        fun result => ∀ r, result = .ok r → Telling (ToolResult.ofReply tc r.toJson) := by
      cases Bridge.ToolCall.fromJson j with
      | error what => exact fun r absurd => by cases absurd
      | ok c =>
        refine (serve_formed env ctx c).mono ?_
        rintro result formed r rfl
        exact telling_toJson tc formed.2.1 formed.2.2
    refine .catching body (fun r telling => ⟨r, rfl, telling r rfl⟩) fun what _ => ?_
    exact ⟨badRequest what, rfl, telling_badRequest tc what⟩

/-! ## What a success tells -/

variable (o : Outside) (s : SafetyState)

/-- The vehicle was asked for a command and accepted it. -/
def Accepted (o : Outside) (command : ActionCommand)
    (out : Program.Outcome Bridge.Op SafetyState String Bridge.ToolResult) : Prop :=
  Bridge.Op.action command ∈ out.performed ∧ o.action command = .success

theorem actionReply_ok {requestId : String} {r : ActionResult}
    (succeeded : (actionReply requestId r).ok = true) : r = .success := by
  unfold actionReply at succeeded
  split at succeeded
  · assumption
  · cases succeeded

theorem callActionMethod_accepted (c : Bridge.ToolCall) (ctx : FlightCtx) (command : ActionCommand)
    {r : Bridge.ToolResult}
    (returned : ((callActionMethod c ctx (action command)).run o.answer s).result = .ok r)
    (succeeded : r.ok = true) :
    Accepted o command ((callActionMethod c ctx (action command)).run o.answer s) := by
  cases ready : ctx.action with
  | false =>
    simp only [callActionMethod, ready, Bool.not_false, if_true] at returned
    obtain rfl := Except.ok.inj returned
    cases succeeded
  | true =>
    simp only [callActionMethod, ready, Bool.not_true, Bool.false_eq_true, if_false] at returned ⊢
    obtain rfl := Except.ok.inj returned
    exact ⟨by simp, actionReply_ok succeeded⟩

theorem latched_accepted (c : Bridge.ToolCall) (ctx : FlightCtx) (command : ActionCommand)
    {r : Bridge.ToolResult}
    (returned : ((latchAbort ctx >>= fun _ => action command >>= fun r =>
      pure (actionReply c.requestId r)).run o.answer s).result = .ok r) (succeeded : r.ok = true) :
    Accepted o command ((latchAbort ctx >>= fun _ => action command >>= fun r =>
      pure (actionReply c.requestId r)).run o.answer s) := by
  have latched := latchAbort_run o s ctx
  rw [Program.run_bind] at returned ⊢
  generalize (latchAbort ctx).run o.answer s = first at latched returned ⊢
  obtain ⟨performed, s', result⟩ := first
  obtain rfl : result = .ok () := latched
  obtain rfl := Except.ok.inj returned
  exact ⟨by simp [Program.Outcome.andThen], actionReply_ok succeeded⟩

section Accepted
variable {ctx : FlightCtx} {c : Bridge.ToolCall} {command : ActionCommand} {r : Bridge.ToolResult}

theorem dispatch_accepted (terminal : c.name ∈ terminalTools)
    (reported : reportedAction c.name = some command)
    (returned : ((dispatch c ctx).run o.answer s).result = .ok r) (succeeded : r.ok = true) :
    Accepted o command ((dispatch c ctx).run o.answer s) := by
  have method (command' : ActionCommand)
      (handled : dispatch c ctx = callActionMethod c ctx (action command'))
      (same : reportedAction c.name = some command') :
      Accepted o command ((dispatch c ctx).run o.answer s) := by
    obtain rfl := Option.some.inj (same.symm.trans reported)
    rw [handled] at returned ⊢
    exact callActionMethod_accepted o s c ctx command' returned succeeded
  have latched (command' : ActionCommand)
      (handled : dispatch c ctx = if !ctx.action then pure (err c.requestId "action_not_initialized")
        else latchAbort ctx >>= fun _ => action command' >>= fun r =>
          pure (actionReply c.requestId r))
      (same : reportedAction c.name = some command') :
      Accepted o command ((dispatch c ctx).run o.answer s) := by
    obtain rfl := Option.some.inj (same.symm.trans reported)
    rw [handled] at returned ⊢
    cases ready : ctx.action with
    | false =>
      simp only [ready, Bool.not_false, if_true] at returned
      obtain rfl := Except.ok.inj returned
      cases succeeded
    | true =>
      simp only [ready, Bool.not_true, Bool.false_eq_true, if_false] at returned ⊢
      exact latched_accepted o s c ctx command' returned succeeded
  simp only [terminalTools, List.mem_cons, List.not_mem_nil, or_false] at terminal
  have handled (name : String) (handler : Bridge.ToolCall → FlightCtx → Bridge.Code Bridge.ToolResult)
      (tool : c.name = name) (found : handlers.lookup name = some handler) :
      dispatch c ctx = handler c ctx := by
    simp [dispatch, tool, found]
  rcases terminal with tool | tool | tool | tool | tool | tool
  · exact method .hold (handled _ handleHold tool rfl) (tool ▸ rfl)
  · exact method .land (handled _ handleLand tool rfl) (tool ▸ rfl)
  · exact latched .land (handled _ handleAbort tool rfl) (tool ▸ rfl)
  · exact method .returnToLaunch (handled _ handleRtl tool rfl) (tool ▸ rfl)
  · exact latched .kill (handled _ handleKill tool rfl) (tool ▸ rfl)
  · exact method .disarm (handled _ handleDisarm tool rfl) (tool ▸ rfl)

theorem finish_accepted (terminal : c.name ∈ terminalTools)
    (reported : reportedAction c.name = some command)
    (returned : ((finish ctx c).run o.answer s).result = .ok r) (succeeded : r.ok = true) :
    Accepted o command ((finish ctx c).run o.answer s) := by
  have finished := finish_run o s ctx c
  cases first : ((dispatch c ctx).run o.answer s).result with
  | error e =>
    simp only [first] at finished
    rw [finished] at returned
    cases returned
  | ok r' =>
    cases accepted : r'.ok with
    | false =>
      simp only [first, accepted, Bool.false_eq_true, if_false] at finished
      rw [finished, first] at returned
      obtain rfl := Except.ok.inj returned
      rw [accepted] at succeeded
      cases succeeded
    | true =>
      obtain ⟨asked, success⟩ := dispatch_accepted o s terminal reported first accepted
      simp only [first, accepted, if_true] at finished
      rw [finished]
      exact ⟨List.mem_append_left _ asked, success⟩

theorem serve_accepted {env : SafetyEnvelope} (terminal : c.name ∈ terminalTools)
    (reported : reportedAction c.name = some command)
    (returned : ((serve env ctx c).run o.answer s).result = .ok r) (succeeded : r.ok = true) :
    Accepted o command ((serve env ctx c).run o.answer s) := by
  obtain ⟨reads, served, -⟩ := serve_run o s env ctx c
  cases decided : gate c.name c.args env s with
  | error e =>
    rw [served, decided] at returned
    cases returned
  | ok d =>
    cases allowed : d.allow with
    | false =>
      simp only [decided, allowed, Bool.false_eq_true, if_false] at served
      rw [served] at returned
      obtain rfl := Except.ok.inj returned
      cases succeeded
    | true =>
      simp only [decided, allowed, if_true] at served
      rw [served] at returned ⊢
      obtain ⟨asked, success⟩ := finish_accepted o s terminal reported returned succeeded
      exact ⟨List.mem_append_right _ asked, success⟩

/-- A terminal tool is answered with success only for a command that was accepted. -/
theorem handle_accepted {env : SafetyEnvelope} {parsed : Parsed} (call : parsed.Call c)
    (terminal : c.name ∈ terminalTools) (reported : reportedAction c.name = some command)
    (returned : ((handle env ctx parsed).run o.answer s).result = .ok r) (succeeded : r.ok = true) :
    Accepted o command ((handle env ctx parsed).run o.answer s) := by
  rw [handle_call_run o s env ctx call] at returned ⊢
  cases served : ((serve env ctx c).run o.answer s).result with
  | error what =>
    simp only [served] at returned
    obtain rfl := Except.ok.inj returned
    cases succeeded
  | ok r' =>
    simp only [served] at returned
    obtain rfl := Except.ok.inj returned
    exact serve_accepted o s terminal reported served succeeded

end Accepted

/-! ## Missions -/

/-- A call over a line whose replies come from the bridge: what the bridge parses is
this request, if it parses it, and what it replies is what it made of it. -/
structure Exchange (env : SafetyEnvelope) (ctx : FlightCtx) (tc : ToolCall) where
  line : Line
  parsed : Parsed
  outside : Outside
  latches : SafetyState
  carried : ∀ j, parsed = .value j → ∃ args, j = request tc args
  answered : ∀ data, line.received = .ok data → ∃ r,
    ((handle env ctx parsed).run outside.answer latches).result = .ok r ∧ data = reply parsed r

variable {env : SafetyEnvelope} {ctx : FlightCtx} {tc : ToolCall} {result : ToolResult}

def Exchange.Returns (x : Exchange env ctx tc) (result : ToolResult) : Prop :=
  ((dispatchToolCall tc).run x.line.answer x.line.offline).result = .ok result

/-- The bridge's own record of the call. -/
def Exchange.outcome (x : Exchange env ctx tc) :
    Program.Outcome Bridge.Op SafetyState String Bridge.ToolResult :=
  (handle env ctx x.parsed).run x.outside.answer x.latches

theorem Line.failure_tells (l : Line) : tells l.failure = true := by
  unfold Line.failure
  split
  · decide
  · split
    · decide
    · exact tells_append (by decide) _
    · exact tells_append (by decide) _
    · exact tells_append (by decide) _

/-- A result is a failure of the line or the decoded reply. -/
theorem Exchange.result_cases (x : Exchange env ctx tc) (returns : x.Returns result) :
    result = failure tc x.line.failure ∨ ∃ r, x.outcome.result = .ok r ∧
      result = ToolResult.ofReply tc (reply x.parsed r) := by
  have returned := dispatchToolCall_result x.line tc
  rw [returns] at returned
  obtain rfl := Except.ok.inj returned
  cases got : x.line.reply? with
  | none => exact .inl rfl
  | some members =>
    obtain ⟨r, handled, same⟩ := x.answered _ (Line.reply?_received got)
    exact .inr ⟨r, handled, congrArg (ToolResult.ofReply tc) same⟩

theorem Exchange.telling (x : Exchange env ctx tc) (returns : x.Returns result) :
    Telling result := by
  rcases x.result_cases returns with rfl | ⟨r, handled, rfl⟩
  · exact telling_failure tc x.line.failure_tells
  · obtain ⟨r', handled', telling⟩ :=
      (handle_telling env ctx x.parsed tc).run x.outside.answer x.latches
    obtain rfl := Except.ok.inj (handled.symm.trans handled')
    exact telling

theorem Exchange.sane (x : Exchange env ctx tc) (returns : x.Returns result) : Sane result :=
  (x.telling returns).1

theorem request_call {j : Json} {args : List (String × Json)} (carried : j = request tc args) :
    Bridge.ToolCall.fromJson j = .ok ⟨tc.requestId, tc.name, .object args⟩ := by
  obtain rfl := carried
  rfl

theorem reportedAction_terminal {name : String} (terminal : name ∈ terminalTools) :
    ∃ command, reportedAction name = some command := by
  simp only [terminalTools, List.mem_cons, List.not_mem_nil, or_false] at terminal
  rcases terminal with rfl | rfl | rfl | rfl | rfl | rfl <;> exact ⟨_, rfl⟩

/-- The vehicle has accepted, in this very call, the command that the tool reports on. -/
def Exchange.Succeeded (x : Exchange env ctx tc) : Prop :=
  ∃ command, reportedAction tc.name = some command ∧ Accepted x.outside command x.outcome

theorem Exchange.succeeded (x : Exchange env ctx tc) (returns : x.Returns result)
    (terminal : tc.name ∈ terminalTools) (accepted : result.ok = true) : x.Succeeded := by
  obtain ⟨command, reported⟩ := reportedAction_terminal terminal
  refine ⟨command, reported, ?_⟩
  rcases x.result_cases returns with rfl | ⟨r, handled, rfl⟩
  · cases accepted
  · cases parsed : x.parsed with
    | failed what utf8 =>
      unfold Exchange.outcome at handled ⊢
      rw [parsed] at handled accepted
      obtain rfl := Except.ok.inj handled
      cases utf8 <;> cases accepted
    | value j =>
      obtain ⟨args, carried⟩ := x.carried j parsed
      rw [parsed] at accepted
      have call : x.parsed.Call ⟨tc.requestId, tc.name, .object args⟩ :=
        ⟨j, parsed, request_call carried⟩
      exact handle_accepted x.outside x.latches call terminal reported handled accepted

/-- A dispatched call, the exchange that was made for it, and what it returned. -/
structure CallMade (env : SafetyEnvelope) (ctx : FlightCtx) where
  tc : ToolCall
  exchange : Exchange env ctx tc
  result : ToolResult
  returned : exchange.Returns result

abbrev LastCall (env : SafetyEnvelope) (ctx : FlightCtx) := Option (CallMade env ctx)

/-- Every dispatch is an exchange with the bridge; all else answers as it likes. -/
def lastCall (env : SafetyEnvelope) (ctx : FlightCtx) :
    (op : Op) → LastCall env ctx → op.Answer → LastCall env ctx → Prop
  | .dispatchToolCall tc, _, result, last =>
    ∃ (exchange : Exchange env ctx tc) (returned : exchange.Returns result),
      last = some ⟨tc, exchange, result, returned⟩
  | _, last, _, last' => last' = last

/-- The last call was of that tool, and the vehicle has accepted its command in it. -/
def EndedBy (tool : String) (last : LastCall env ctx) : Prop :=
  ∃ call, last = some call ∧ call.tc.name = tool ∧ call.exchange.Succeeded

def Truthful : Op → LastCall env ctx → Prop
  | .appendHistory (.mission _ _ _ (.terminal tool)), last => EndedBy tool last
  | _, _ => True

abbrev Reports {α : Type} (post : α → LastCall env ctx → Prop) (p : Code α)
    (last : LastCall env ctx) : Prop :=
  p.Holds (.alone (lastCall env ctx)) Truthful (fun result last => ∀ a, result = .ok a → post a last) last

/-- Operations that neither call a tool nor end a mission. -/
def Op.plain : Op → Bool
  | .dispatchToolCall _ | .appendHistory _ => false
  | _ => true

section Reports
variable {α β : Type} {post : α → LastCall env ctx → Prop} {last : LastCall env ctx}

theorem reports_done {a : α} (h : post a last) : Reports post (.done a) last :=
  .alone_done fun _ same => Except.ok.inj same ▸ h

theorem reports_bind {mid : β → LastCall env ctx → Prop} {p : Code β} {f : β → Code α}
    (first : Reports mid p last)
    (rest : ∀ b last, mid b last → Reports post (f b) last) :
    Reports post (p >>= f) last :=
  .bind first (fun b last h => rest b last (h b rfl)) fun e => e.elim

theorem reports_call {op : Op} {f : op.Answer → Code α} (plain : op.plain = true)
    (rest : ∀ r, Reports post (f r) last) : Reports post (call op >>= f) last := by
  refine .alone_step ?_ fun r last' effect => ?_
  · cases op <;> trivial
  · obtain rfl : last' = last := by
      cases op with
      | dispatchToolCall tc => cases plain
      | _ => exact effect
    exact rest r

theorem reports_plain {p : Code α} (plain : p.All (·.plain = true)) :
    Reports (fun _ here => here = last) p last := by
  induction p with
  | done a => exact reports_done rfl
  | raise e => exact e.elim
  | step op next ih => exact reports_call plain.1 fun r => ih r (plain.2 r)

end Reports

theorem verdict_terminal {tc : ToolCall} {result : ToolResult} (sane : Sane result)
    (judged : verdict tc result = .terminal) : result.ok = true ∧ tc.name ∈ terminalTools := by
  have accepted := ok_of_verdict tc sane (by simp [judged]) (by simp [judged])
  refine ⟨accepted, ?_⟩
  have same := (verdict_ok accepted (by simp [judged])).symm.trans judged
  by_contra other
  simp [other] at same

variable {last : LastCall env ctx}

theorem dispatchBatch_reports (batch : List ToolCall) (last : LastCall env ctx) :
    Reports (fun ended last => ∀ tool, ended = .terminal tool → EndedBy tool last)
      (dispatchBatch batch) last := by
  induction batch generalizing last with
  | nil => exact reports_done fun tool other => by cases other
  | cons tc rest ih =>
    have skipped (reason : String) (ended : BatchEnd) (left : List ToolCall) (last : LastCall env ctx)
        (told : ∀ tool, ended = .terminal tool → EndedBy tool last) :
        Reports
          (fun ended last => ∀ tool, ended = .terminal tool → EndedBy tool last)
          (recordSkipped reason left >>= fun _ => pure ended : Code BatchEnd) last :=
      reports_bind (reports_plain (recordSkipped_all (fun _ => by rfl) reason left))
        fun _ _ same => reports_done (same ▸ told)
    apply reports_call rfl
    intro stopped
    cases stopped with
    | true => exact skipped _ _ _ _ fun tool other => by cases other
    | false =>
      apply reports_call rfl
      intro preempted
      cases preempted with
      | true => exact skipped _ _ _ _ fun tool other => by cases other
      | false =>
        refine .alone_step trivial ?_
        rintro result last' ⟨x, returns, rfl⟩
        apply reports_call rfl
        intro _
        cases judged : verdict tc result with
        | offline => exact skipped _ _ _ _ fun tool other => by cases other
        | terminal =>
          apply skipped _ _ _ _
          intro tool same
          obtain rfl := BatchEnd.terminal.inj same
          obtain ⟨accepted, terminal⟩ := verdict_terminal (x.sane returns) judged
          exact ⟨_, rfl, rfl, x.succeeded returns terminal accepted⟩
        | failed =>
          apply reports_call rfl
          intro mission
          apply reports_bind (reports_plain (recordSkipped_all (fun _ => by rfl) _ _))
          intro _ last _
          split
          · exact reports_done fun tool other => by cases other
          · exact reports_done fun tool other => by cases other
        | next => exact ih _

theorem decisionLoop_reports (text : String) (left decisionCount : Nat) (last : LastCall env ctx) :
    Reports
      (fun ended last => ∀ tool, ended.terminalCall = some tool → EndedBy tool last)
      (decisionLoop text left decisionCount) last := by
  induction left generalizing decisionCount last with
  | zero => exact reports_done fun tool other => by cases other
  | succ left ih =>
    have ends (ended : LoopEnd) (last : LastCall env ctx) (open_ended : ended.terminalCall = none) :
        Reports
          (fun ended last => ∀ tool, ended.terminalCall = some tool → EndedBy tool last)
          (.done ended) last :=
      reports_done fun tool some_tool => by simp [open_ended] at some_tool
    apply reports_call rfl
    intro stopped
    cases stopped with
    | true => exact ends _ _ rfl
    | false =>
      have overtaking : overtaken.All (·.plain = true) := overtaken_all (by rfl) (by rfl)
      apply reports_bind (reports_plain overtaking)
      intro overtaken last _
      cases overtaken with
      | true => exact ends _ _ rfl
      | false =>
        refine reports_call rfl fun mission => reports_call rfl fun _ => ?_
        refine reports_call rfl fun _ => reports_call rfl fun _ => reports_call rfl ?_
        intro preempted
        cases preempted with
        | true => exact ends _ _ rfl
        | false =>
          apply reports_call rfl
          intro stopped
          cases stopped with
          | true => exact ends _ _ rfl
          | false =>
            apply reports_call rfl
            intro result
            cases result with
            | error what => exact ends _ _ rfl
            | ok decision =>
              change Reports _ (if decision.toolCalls = [] then _ else _) _
              split
              · split
                · exact ends _ _ rfl
                · exact ends _ _ rfl
              · apply reports_call rfl
                intro _
                apply reports_bind (dispatchBatch_reports decision.toolCalls last)
                intro ended last told
                cases ended with
                | failed | through => exact ih (decisionCount + 1) last
                | terminal tool =>
                  apply reports_done
                  intro tool' same
                  obtain rfl := Option.some.inj same
                  exact told tool rfl
                | _ => exact ends _ _ rfl

theorem endReason_reports (maxSteps : Int) {ended : LoopEnd}
    (told : ∀ tool, ended.terminalCall = some tool → EndedBy tool last) :
    Reports (fun reason last => ∀ tool, reason = .terminal tool → EndedBy tool last)
      (endReason maxSteps ended) last := by
  have other (reason : EndReason) (plain : ∀ tool, reason ≠ .terminal tool) :
      Reports
        (fun reason last => ∀ tool, reason = .terminal tool → EndedBy tool last)
        (.done reason) last :=
    reports_done fun tool same => absurd same (plain tool)
  apply reports_call rfl
  intro stopped
  cases stopped with
  | true => exact other _ (by simp)
  | false =>
    simp only [Bool.false_eq_true, if_false]
    split
    · exact other _ (by simp)
    · cases called : ended.terminalCall with
      | some tool =>
        apply reports_done
        intro tool' same
        obtain rfl := EndReason.terminal.inj same
        exact told tool called
      | none =>
        apply reports_call rfl
        intro offline
        repeat' split
        all_goals exact other _ (by simp)

theorem mission_reports (maxSteps : Int) (text : String) :
    Reports (fun _ _ => True) (mission maxSteps text) (none : LastCall env ctx) := by
  apply reports_call rfl
  intro _
  apply reports_bind (decisionLoop_reports text maxSteps.toNat 0 none)
  intro ended last told
  apply reports_bind (endReason_reports maxSteps told)
  intro reason last told
  refine reports_call rfl fun mission => .alone_step ?_ fun _ last' effect => ?_
  · cases reason with
    | terminal tool => exact told tool rfl
    | _ => trivial
  · change Reports (fun _ _ => True) (if _ then _ else _) _
    have publishing (state : String) :
        Reports (fun _ _ => True) (call (.publishStatus state)) last' :=
      reports_call rfl fun _ => reports_done trivial
    split
    · exact publishing _
    · split
      · exact reports_done trivial
      · exact publishing _

/-- Every reply is decoded as a success without an error or a failure with one. A
mission ends as `terminal:t` only right after a call of `t` in which the vehicle has
accepted the command. -/
theorem success_survives (env : SafetyEnvelope) (ctx : FlightCtx) :
    (∀ parsed tc, (handle env ctx parsed).Ends fun result =>
      ∃ r, result = .ok r ∧ Sane (ToolResult.ofReply tc (reply parsed r))) ∧
    (∀ tc (x : Exchange env ctx tc) result, x.Returns result → Sane result) ∧
    ∀ maxSteps text path (next : Unit → Code Unit) (last : LastCall env ctx) (said : String)
      (decisions tools : Nat) (tool : String),
      Run (Turn (lastCall env ctx)) (mission maxSteps text, none) path
        (.step (.appendHistory (.mission said decisions tools (.terminal tool))) next, last) →
      EndedBy tool last := by
  refine ⟨fun parsed tc => ?_, fun tc x result => x.sane, ?_⟩
  · refine (handle_telling env ctx parsed tc).mono ?_
    rintro result ⟨r, returned, telling⟩
    exact ⟨r, returned, telling.1⟩
  intro maxSteps text path next last said decisions tools tool run
  exact (Program.Holds.along run (mission_reports maxSteps text)).now_good

/-! ## A mission that lands -/

def landed : Bridge.ToolResult := { requestId := "1", ok := true }

def landExchange : Exchange {} {} landCall where
  line := { received := .ok (reply (.value (request landCall [])) landed) }
  parsed := .value (request landCall [])
  outside := .nominal
  latches := {}
  carried _ same := ⟨[], (Parsed.value.inj same).symm⟩
  answered _ received := ⟨landed, rfl, (Except.ok.inj received).symm⟩

def landResult : ToolResult := ToolResult.ofReply landCall landed.toJson

def landMade : CallMade {} {} := ⟨landCall, landExchange, landResult, rfl⟩

def lastCall? : (op : Op) → LastCall {} {} → op.Answer → Option (LastCall {} {})
  | .dispatchToolCall tc, _, result =>
    if tc = landCall ∧ result = landResult then some (some landMade) else none
  | _, last, _ => some last

theorem lastCall?_sound {op : Op} {last last' : LastCall {} {}} {r : op.Answer}
    (done : lastCall? op last r = some last') : lastCall {} {} op last r last' := by
  cases op with
  | dispatchToolCall tc =>
    simp only [lastCall?, Option.ite_none_right_eq_some, Option.some.injEq] at done
    obtain ⟨⟨rfl, rfl⟩, rfl⟩ := done
    exact ⟨landExchange, rfl, rfl⟩
  | _ => exact (Option.some.inj done).symm

def landing : List (Event Op.Answer) :=
  let before : OrchestratorMission := { goalText := "down" }
  [⟨.newMission "down", ()⟩, ⟨.stopIsSet, false⟩, ⟨.preemptIsSet, false⟩, ⟨.queueEmpty, true⟩,
    ⟨.mission, before⟩, ⟨.publishStatus "thinking", ()⟩,
    ⟨.vlmSubmit { userCommand := "down", mission := before }, ()⟩, ⟨.vlmWait, ()⟩,
    ⟨.preemptIsSet, false⟩, ⟨.stopIsSet, false⟩,
    ⟨.vlmResult, .ok { thought := "", toolCalls := [landCall] }⟩,
    ⟨.publishStatus "executing", ()⟩, ⟨.stopIsSet, false⟩, ⟨.preemptIsSet, false⟩,
    ⟨.dispatchToolCall landCall, landResult⟩,
    ⟨.record (executedStep landCall landResult) true, ()⟩, ⟨.stopIsSet, false⟩,
    ⟨.mission, before.record (executedStep landCall landResult) true⟩]

theorem success_survives_landing : ∃ path last said decisions tools, ∃ next : Unit → Code Unit,
    Run (Turn (lastCall {} {})) (mission 10 "down", none) path
      (.step (.appendHistory (.mission said decisions tools (.terminal "land"))) next, last) ∧
    EndedBy "land" last := by
  have replayed : ∃ path next,
      replay (turn? lastCall?) (mission 10 "down", none) landing =
        some (path, .step (.appendHistory (.mission "down" 1 1 (.terminal "land"))) next,
          some landMade) := ⟨_, _, rfl⟩
  obtain ⟨path, next, replayed⟩ := replayed
  have run := Run.of_replay (fun taken => turn?_sound lastCall?_sound taken) replayed
  exact ⟨path, _, _, _, _, next, run, (success_survives {} {}).2.2 _ _ _ _ _ _ _ _ _ run⟩

end Lexaire.Orchestrator
