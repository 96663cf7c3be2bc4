import Lexaire.Bridge.Rejection

/-! What one whole request does to the latches and to the vehicle, when nothing
comes in between. -/
namespace Lexaire.Bridge
open Atomic

variable {env : SafetyEnvelope} {ctx : FlightCtx} {o : Outside} {s : SafetyState} {parsed : Parsed}

theorem Parsed.Call.unique {c d : ToolCall} (first : parsed.Call c) (second : parsed.Call d) :
    c = d := by
  obtain ⟨j, rfl, read⟩ := first
  obtain ⟨j', same, read'⟩ := second
  obtain rfl := Parsed.value.inj same
  exact Except.ok.inj (read.symm.trans read')

/-- A command reaches the vehicle only for a call that the gate lets through and
whose tool asks for it. -/
theorem handle_command {op : Op} (command : op.isCommand = true)
    (performed : op ∈ ((handle env ctx parsed).run o.answer s).performed) :
    ∃ c, parsed.Call c ∧ Passes env s c ∧ op.ofTool c.name = true := by
  by_cases called : ∃ c, parsed.Call c
  · obtain ⟨c, call⟩ := called
    rw [handle_call_run o s env ctx call] at performed
    obtain ⟨passes, asked⟩ := (serve_command_iff o s env ctx c command).mp performed
    exact ⟨c, call, passes, dispatch_performed o s c ctx asked⟩
  · obtain ⟨what, ran⟩ := handle_unparsed_run o s env ctx (not_exists.mp called)
    rw [ran] at performed
    cases performed

/-- A `disarm` that the vehicle accepts. -/
def Disarms (env : SafetyEnvelope) (ctx : FlightCtx) (parsed : Parsed) (o : Outside)
    (s : SafetyState) : Prop :=
  ∃ c r, parsed.Call c ∧ c.name = "disarm" ∧
    ((handle env ctx parsed).run o.answer s).result = .ok r ∧ r.ok = true

/-- A confirmed `arm` that the vehicle accepts. -/
def Arms (env : SafetyEnvelope) (ctx : FlightCtx) (parsed : Parsed) (o : Outside)
    (s : SafetyState) : Prop :=
  ∃ c, parsed.Call c ∧ c.name = "arm" ∧ c.args.valueBool "voice_confirmed" false = .ok true ∧
    Op.action .arm ∈ ((handle env ctx parsed).run o.answer s).performed ∧
    o.action .arm = .success

/-- Nothing was committed, and the answer says so. -/
def Refuses (s : SafetyState) (out : Program.Outcome Op SafetyState String ToolResult) : Prop :=
  out.state = s ∧ ∀ r, out.result = .ok r → r.ok = false

/-- The latches after a call, by what became of it. -/
inductive Latched (o : Outside) (s : SafetyState) (c : ToolCall)
    (out : Program.Outcome Op SafetyState String ToolResult) : Prop where
  | refused (refused : Refuses s out)
  | armed (tool : c.name = "arm") (asked : .action .arm ∈ out.performed)
      (accepted : o.action .arm = .success)
      (state : out.state = if c.args.valueBool "voice_confirmed" false = .ok true then
        { s with armedWithVoice := true } else s)
  | disarmed (tool : c.name = "disarm") (replied : ∃ r, out.result = .ok r ∧ r.ok = true)
      (state : out.state = {})
  | other (notArm : c.name ≠ "arm") (notDisarm : c.name ≠ "disarm")
      (voice : out.state.armedWithVoice = s.armedWithVoice)
      (abort : s.aborted = true → out.state.aborted = true)

variable (o s) {c : ToolCall}

theorem finish_arm_latched (ctx : FlightCtx) (tool : c.name = "arm") :
    Latched o s c ((finish ctx c).run o.answer s) := by
  have finished := finish_run o s ctx c
  by_cases ready : ctx.action = true
  · rw [dispatch_arm_run o s tool ready] at finished
    by_cases accepted : o.action .arm = .success
    · simp only [accepted, actionReply, if_true, ok] at finished
      rw [finished]
      refine .armed tool (by simp) accepted ?_
      unfold commit
      simp only [tool, beq_self_eq_true, if_true]
      cases c.args.valueBool "voice_confirmed" false with
      | error e => simp
      | ok confirmed => cases confirmed <;> simp [storeArmedWithVoice, Program.perform]
    · simp only [accepted, actionReply, if_false, err, Bool.false_eq_true] at finished
      rw [finished]
      exact .refused ⟨rfl, by rintro r ⟨⟩; rfl⟩
  · have reply : (dispatch c ctx).run o.answer s =
        ⟨[], s, .ok (err c.requestId "action_not_initialized")⟩ := by
      simp [dispatch, handlers, tool, handleArm, callActionMethod, ready]
    rw [reply] at finished
    simp only [err, Bool.false_eq_true, if_false] at finished
    rw [finished]
    exact .refused ⟨rfl, by rintro r ⟨⟩; rfl⟩

theorem finish_disarm_latched (ctx : FlightCtx) (tool : c.name = "disarm") :
    Latched o s c ((finish ctx c).run o.answer s) := by
  have finished := finish_run o s ctx c
  have dispatched : ∃ performed, (dispatch c ctx).run o.answer s = ⟨performed, s, .ok
      (if ctx.action then actionReply c.requestId (o.action .disarm)
        else err c.requestId "action_not_initialized")⟩ := by
    cases ready : ctx.action with
    | false => exact ⟨[], by
        simp [dispatch, handlers, tool, List.lookup, handleDisarm, callActionMethod, ready]⟩
    | true => exact ⟨[.action .disarm], by
        simp [dispatch, handlers, tool, List.lookup, handleDisarm, callActionMethod, ready]⟩
  obtain ⟨performed, ran⟩ := dispatched
  rw [ran] at finished
  generalize (if ctx.action then actionReply c.requestId (o.action .disarm)
    else err c.requestId "action_not_initialized") = r at finished
  cases accepted : r.ok with
  | true =>
    simp only [accepted, if_true, commit, tool] at finished
    rw [finished]
    exact .disarmed tool ⟨r, rfl, accepted⟩ rfl
  | false =>
    simp only [accepted, Bool.false_eq_true, if_false] at finished
    rw [finished]
    exact .refused ⟨rfl, by rintro r' ⟨⟩; exact accepted⟩

theorem finish_other_latched (ctx : FlightCtx) (notArm : c.name ≠ "arm")
    (notDisarm : c.name ≠ "disarm") : Latched o s c ((finish ctx c).run o.answer s) := by
  have spares : (finish ctx c).All fun op =>
      op ≠ .storeAborted false ∧ ∀ v, op ≠ .storeArmedWithVoice v := by
    refine .bind ((dispatch_all c ctx).mono ?_) ?_
    · rintro op asked
      refine ⟨?_, fun v => ?_⟩ <;> rintro rfl <;> cases asked
    · intro r
      simp [commit, notArm, notDisarm]
  have kept (op : Op) (t : SafetyState)
      (spared : op ≠ .storeAborted false ∧ ∀ v, op ≠ .storeArmedWithVoice v) :
      (o.answer op t).2.armedWithVoice = t.armedWithVoice ∧
        (t.aborted = true → (o.answer op t).2.aborted = true) := by
    cases op with
    | storeAborted v => cases v <;> simp_all
    | storeArmedWithVoice v => exact absurd rfl (spared.2 v)
    | _ => exact ⟨rfl, id⟩
  refine .other notArm notDisarm ?_ ?_
  · exact spares.run_state (I := fun t => t.armedWithVoice = s.armedWithVoice) o.answer
      (fun op t spared same => (kept op t spared).1.trans same) rfl
  · exact fun set => spares.run_state (I := fun t => t.aborted = true) o.answer
      (fun op t spared same => (kept op t spared).2 same) set

theorem finish_latched (ctx : FlightCtx) (c : ToolCall) :
    Latched o s c ((finish ctx c).run o.answer s) := by
  by_cases arm : c.name = "arm"
  · exact finish_arm_latched o s ctx arm
  · by_cases disarm : c.name = "disarm"
    · exact finish_disarm_latched o s ctx disarm
    · exact finish_other_latched o s ctx arm disarm

/-- The reads of the gate change nothing. -/
theorem Latched.prepend {out : Program.Outcome Op SafetyState String ToolResult}
    (latched : Latched o s c out) (reads : List Op) :
    Latched o s c { out with performed := reads ++ out.performed } := by
  cases latched with
  | refused refused => exact .refused refused
  | armed tool asked accepted state =>
    exact .armed tool (List.mem_append_right reads asked) accepted state
  | disarmed tool replied state => exact .disarmed tool replied state
  | other notArm notDisarm voice abort => exact .other notArm notDisarm voice abort

theorem serve_latched (env : SafetyEnvelope) (ctx : FlightCtx) (c : ToolCall) :
    Latched o s c ((serve env ctx c).run o.answer s) := by
  obtain ⟨reads, served, -⟩ := serve_run o s env ctx c
  rw [served]
  cases gate c.name c.args env s with
  | error e => exact .refused ⟨rfl, by simp⟩
  | ok d =>
    cases allowed : d.allow with
    | false =>
      simp only [allowed, Bool.false_eq_true, if_false]
      exact .refused ⟨rfl, by rintro r ⟨⟩; rfl⟩
    | true =>
      simp only [allowed, if_true]
      exact (finish_latched o s ctx c).prepend o s reads

theorem handle_latched (env : SafetyEnvelope) (ctx : FlightCtx) (call : parsed.Call c) :
    Latched o s c ((handle env ctx parsed).run o.answer s) := by
  have latched := serve_latched o s env ctx c
  rw [handle_call_run o s env ctx call]
  generalize (serve env ctx c).run o.answer s = out at latched
  obtain ⟨performed, s', result⟩ := out
  cases latched with
  | refused refused =>
    refine .refused ⟨refused.1, ?_⟩
    cases result with
    | error what => rintro r ⟨⟩; rfl
    | ok r => exact refused.2
  | armed tool asked accepted state => exact .armed tool asked accepted state
  | disarmed tool replied state =>
    obtain ⟨r, rfl, accepted⟩ := replied
    exact .disarmed tool ⟨r, rfl, accepted⟩ state
  | other notArm notDisarm voice abort => exact .other notArm notDisarm voice abort

theorem handle_refuses (env : SafetyEnvelope) (ctx : FlightCtx) (unparsed : ∀ c, ¬ parsed.Call c) :
    Refuses s ((handle env ctx parsed).run o.answer s) := by
  obtain ⟨what, ran⟩ := handle_unparsed_run o s env ctx unparsed
  rw [ran]
  exact ⟨rfl, by rintro r ⟨⟩; rfl⟩

variable {o s}

/-- The spoken-arm latch is set by a confirmed arm alone, and no accepted disarm
leaves it set. -/
theorem handle_armedWithVoice
    (set : ((handle env ctx parsed).run o.answer s).state.armedWithVoice = true) :
    ¬ Disarms env ctx parsed o s ∧ (s.armedWithVoice = true ∨ Arms env ctx parsed o s) := by
  have quiet (refuses : Refuses s ((handle env ctx parsed).run o.answer s)) :
      ¬ Disarms env ctx parsed o s ∧ (s.armedWithVoice = true ∨ Arms env ctx parsed o s) := by
    refine ⟨?_, .inl (refuses.1 ▸ set)⟩
    rintro ⟨c, r, -, -, replied, accepted⟩
    rw [refuses.2 r replied] at accepted
    cases accepted
  by_cases called : ∃ c, parsed.Call c
  · obtain ⟨c, call⟩ := called
    have notDisarms (other : c.name ≠ "disarm") : ¬ Disarms env ctx parsed o s := by
      rintro ⟨c', r, call', tool, -⟩
      exact other (call.unique call' ▸ tool)
    cases handle_latched o s env ctx call with
    | refused refuses => exact quiet refuses
    | armed tool asked accepted state =>
      refine ⟨notDisarms (by simp [tool]), ?_⟩
      by_cases confirmed : c.args.valueBool "voice_confirmed" false = .ok true
      · exact .inr ⟨c, call, tool, confirmed, asked, accepted⟩
      · rw [state, if_neg confirmed] at set
        exact .inl set
    | disarmed tool replied state =>
      rw [state] at set
      cases set
    | other notArm notDisarm voice abort => exact ⟨notDisarms notDisarm, .inl (voice ▸ set)⟩
  · exact quiet (handle_refuses o s env ctx (not_exists.mp called))

/-- An accepted disarm alone clears the abort latch. -/
theorem handle_aborted (set : s.aborted = true)
    (kept : ¬ Disarms env ctx parsed o s) :
    ((handle env ctx parsed).run o.answer s).state.aborted = true := by
  by_cases called : ∃ c, parsed.Call c
  · obtain ⟨c, call⟩ := called
    cases handle_latched o s env ctx call with
    | refused refuses =>
      rw [refuses.1]
      exact set
    | armed tool asked accepted state =>
      rw [state]
      split <;> exact set
    | disarmed tool replied state =>
      obtain ⟨r, replied, accepted⟩ := replied
      exact absurd ⟨c, r, call, tool, replied, accepted⟩ kept
    | other notArm notDisarm voice abort => exact abort set
  · rw [(handle_refuses o s env ctx (not_exists.mp called)).1]
    exact set

theorem finish_abort_run {c : ToolCall} (ready : ctx.action = true) (heard : ctx.telemetry = true)
    (latching : ctx.safety = true) (abort : c.name = "abort") (flying : o.inAir = true) :
    ((finish ctx c).run o.answer s).state = { s with aborted := true } := by
  have dispatched : (dispatch c ctx).run o.answer s =
      ⟨[.inAir, .storeAborted true, .action .land], { s with aborted := true },
        .ok (actionReply c.requestId (o.action .land))⟩ := by
    simp [dispatch, handlers, List.lookup, abort, handleAbort, latchAbort, readInAir, ready, heard,
      latching, flying]
  unfold finish
  rw [Program.run_bind, dispatched]
  simp only [Program.Outcome.andThen, commit, abort]
  split <;> rfl

/-- An abort in the air leaves the latch set, and so does one that finds it set. -/
theorem handle_abort_latches {c : ToolCall} (ready : ctx.action = true)
    (heard : ctx.telemetry = true) (latching : ctx.safety = true) (call : parsed.Call c)
    (abort : c.name = "abort") (reason : o.inAir = true ∨ s.aborted = true) :
    ((handle env ctx parsed).run o.answer s).state.aborted = true := by
  rcases reason with flying | set
  · have passes : gate c.name c.args env s = .ok {} := by
      simp [gate, abort, isEmergencyFollowup, checkLimits]
    obtain ⟨reads, served, -⟩ := serve_run o s env ctx c
    rw [handle_call_run o s env ctx call, served, passes]
    simp only [if_true]
    rw [finish_abort_run ready heard latching abort flying]
  · apply handle_aborted set
    rintro ⟨c', r, call', disarm, -⟩
    obtain rfl := call.unique call'
    rw [abort] at disarm
    exact absurd disarm (by decide)

theorem passes_aborted {c : ToolCall} (set : s.aborted = true) (passes : Passes env s c) :
    isEmergencyFollowup c.name = true := by
  obtain ⟨d, decided, allowed⟩ := passes
  cases emergency : isEmergencyFollowup c.name with
  | true => rfl
  | false =>
    simp only [gate, set, emergency, Bool.not_false, Bool.and_true, if_true] at decided
    obtain rfl := Except.ok.inj decided
    cases allowed

theorem passes_clear {c : ToolCall} (motion : isEmergencyFollowup c.name = false)
    (passes : Passes env s c) : s.aborted = false := by
  cases set : s.aborted with
  | false => rfl
  | true =>
    rw [passes_aborted set passes] at motion
    cases motion

/-- Without the latch, an arm needs the confirmation in its own arguments. -/
theorem passes_arm {c : ToolCall} (tool : c.name = "arm") (required : env.requireSpokenArm = true)
    (unarmed : s.armedWithVoice = false) (passes : Passes env s c) :
    c.args.valueBool "voice_confirmed" false = .ok true := by
  have clear := passes_clear (by simp [tool, isEmergencyFollowup]) passes
  obtain ⟨d, decided, allowed⟩ := passes
  cases read : c.args.valueBool "voice_confirmed" false with
  | error e => simp [gate, clear, tool, required, unarmed, read, Except.map] at decided
  | ok confirmed =>
    cases confirmed with
    | true => rfl
    | false =>
      have denied : (gate c.name c.args env s).map (·.allow) = .ok false := by
        simp [gate, clear, tool, required, unarmed, read, Except.map, deny]
      rw [decided] at denied
      cases (Except.ok.inj denied).symm.trans allowed

theorem passes_takeoff {c : ToolCall} (tool : c.name = "takeoff")
    (required : env.requireSpokenArm = true) (passes : Passes env s c) :
    s.armedWithVoice = true := by
  have clear := passes_clear (by simp [tool, isEmergencyFollowup]) passes
  obtain ⟨d, decided, allowed⟩ := passes
  cases latched : s.armedWithVoice with
  | true => rfl
  | false =>
    have denied : (gate c.name c.args env s).map (·.allow) = .ok false := by
      simp [gate, clear, tool, required, latched, deny, Except.map]
    rw [decided] at denied
    cases (Except.ok.inj denied).symm.trans allowed

end Lexaire.Bridge
