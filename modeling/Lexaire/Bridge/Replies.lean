import Lexaire.Core.Alone
import Lexaire.Bridge.Results

/-! The REQ/REP loop around the handling of a request. It sends one reply for each
request before it receives the next; only the catch-all forgets which request it
replies to. -/
namespace Lexaire.Bridge
open Atomic Transition

/-- What the loop does: `receive` is a poll and what it led to, `serve` an operation
of the handling, `rebuild` the new socket after a send that failed. -/
inductive RepOp where
  | stopRequested
  | receive
  | serve (op : Op)
  | send (reply : Json)
  | rebuild

@[reducible] def RepOp.Answer : RepOp → Type
  | .stopRequested | .send _ | .rebuild => Bool
  | .receive => Option Parsed
  | .serve op => op.Answer

abbrev RepCode := Program RepOp RepOp.Answer String

/-- Code of the bridge, run by the loop. -/
def serving {α : Type} : Code α → RepCode α
  | .done a => .done a
  | .raise e => .raise e
  | .step op next => .step (.serve op) fun r => serving (next r)

/-- One turn of the loop; false is its `break`. -/
def turn (env : SafetyEnvelope) (ctx : FlightCtx) : RepCode Bool := do
  match ← Program.perform RepOp.receive with
  | none => return true
  | some parsed =>
    let result ← serving (handle env ctx parsed)
    if ← Program.perform (RepOp.send (reply parsed result)) then return true
    else Program.perform RepOp.rebuild

/-- The loop, for that many turns at most. -/
def repLoop (env : SafetyEnvelope) (ctx : FlightCtx) : Nat → RepCode Unit
  | 0 => return
  | turns + 1 => do
    if ← Program.perform RepOp.stopRequested then return
    else if ← turn env ctx then repLoop env ctx turns
    else return

/-- The request's own id, where it parses to an object that has one. -/
def Identified (parsed : Parsed) (id : String) : Prop :=
  ∃ j, parsed = .value j ∧ j.find? "request_id" = some (.string id)

/-- What every reply to a request is. -/
structure Replies (parsed : Parsed) (sent : Json) : Prop where
  isObject : ∃ members, sent = .object members
  ok : ∃ ok, sent.find? "ok" = some (.boolean ok)
  id : ∀ id, Identified parsed id → sent.find? "request_id" = some (.string id) ∨
    ∃ what, sent = (badRequest what).toJson

/-- The events of a loop that replies to each request before it receives another,
with the request that is still owed a reply. -/
inductive Alternating : List (Event RepOp.Answer) → Option Parsed → Prop where
  | nil : Alternating [] none
  | receive {log : List (Event RepOp.Answer)} {got : Option Parsed} :
      Alternating log none → Alternating (log ++ [⟨.receive, got⟩]) got
  | serve {log : List (Event RepOp.Answer)} {parsed : Parsed} {op : Op} {r : op.Answer} :
      Alternating log (some parsed) → Alternating (log ++ [⟨.serve op, r⟩]) (some parsed)
  | send {log : List (Event RepOp.Answer)} {parsed : Parsed} {sent : Json} {r : Bool} :
      Alternating log (some parsed) → Replies parsed sent →
        Alternating (log ++ [⟨.send sent, r⟩]) none
  | between {log : List (Event RepOp.Answer)} {op : RepOp} {r : op.Answer} :
      Alternating log none → (op = .stopRequested ∨ op = .rebuild) →
        Alternating (log ++ [⟨op, r⟩]) none

theorem fromJson_named {j : Json} {id : String}
    (named : j.find? "request_id" = some (.string id)) : ToolCall.fromJson j =
      (j.valueString "name" "").map fun name =>
        { requestId := id, name, args := (j.find? "args").getD (.object []) } := by
  cases j with
  | object members =>
    have read : Json.valueString (.object members) "request_id" "" = .ok id := by
      have found : members.lookup "request_id" = some (.string id) := named
      simp [Json.valueString, Json.value, found, Json.string?]
    unfold ToolCall.fromJson
    rw [read]
    cases Json.valueString (.object members) "name" "" <;> rfl
  | _ => cases named

theorem replies_badRequest (parsed : Parsed) (what : String) :
    Replies parsed (badRequest what).toJson :=
  ⟨⟨_, rfl⟩, ⟨false, rfl⟩, fun _ _ => .inr ⟨what, rfl⟩⟩

/-- Whatever it is given, handling ends in a result, and the reply follows. -/
theorem handle_replies (env : SafetyEnvelope) (ctx : FlightCtx) (parsed : Parsed) :
    (handle env ctx parsed).Ends fun result =>
      ∃ r, result = .ok r ∧ Replies parsed (reply parsed r) := by
  cases parsed with
  | failed what utf8 =>
    refine ⟨badRequest what, rfl, ?_⟩
    cases utf8 with
    | true => exact replies_badRequest _ what
    | false =>
      refine ⟨⟨_, rfl⟩, ⟨false, rfl⟩, ?_⟩
      rintro id ⟨j, absurd, -⟩
      cases absurd
  | value j =>
    have body : (Program.ofExcept (ToolCall.fromJson j) >>= serve env ctx).Ends fun result =>
        ∀ r, result = .ok r → Replies (.value j) r.toJson := by
      cases read : ToolCall.fromJson j with
      | error what => exact fun r absurd => by cases absurd
      | ok c =>
        refine (serve_formed env ctx c).mono ?_
        rintro result formed r rfl
        refine ⟨⟨_, rfl⟩, ⟨r.ok, rfl⟩, ?_⟩
        rintro id ⟨j', same, named⟩
        obtain rfl := Parsed.value.inj same
        rw [fromJson_named named] at read
        cases tool : j.valueString "name" "" with
        | error what => simp [tool, Except.map] at read
        | ok name =>
          rw [tool] at read
          obtain rfl := Except.ok.inj read
          exact .inl (congrArg (fun id => some (Json.string id)) formed.1)
    refine .catching body (fun r replies => ⟨r, rfl, replies r rfl⟩) fun what _ => ?_
    exact ⟨badRequest what, rfl, replies_badRequest _ what⟩

/-! ## The loop -/

/-- The state is what has happened; any answer is possible. -/
def RepOp.logged (op : RepOp) (log : List (Event RepOp.Answer)) (r : op.Answer)
    (log' : List (Event RepOp.Answer)) : Prop :=
  log' = log ++ [⟨op, r⟩]

/-- A request is received only when none is owed a reply. -/
def Timely (op : RepOp) (log : List (Event RepOp.Answer)) : Prop :=
  ∃ owed, Alternating log owed ∧ (op = .receive → owed = none)

abbrev Serves {α : Type} (p : RepCode α) (owed : Except String α → Option Parsed → Prop)
    (log : List (Event RepOp.Answer)) : Prop :=
  p.Holds (.alone RepOp.logged) Timely (fun result log => ∃ parsed, Alternating log parsed ∧
    owed result parsed) log

variable {log : List (Event RepOp.Answer)}

theorem serving_serves {α : Type} {p : Code α} {fine : Except String α → Prop} {parsed : Parsed}
    (ends : p.Ends fine) (owed : Alternating log (some parsed)) :
    Serves (serving p) (fun result owed => fine result ∧ owed = some parsed) log := by
  induction p generalizing log with
  | done a => exact .alone_done ⟨_, owed, ends, rfl⟩
  | raise e => exact .alone_raise ⟨_, owed, ends, rfl⟩
  | step op next ih =>
    refine .alone_step ⟨_, owed, by simp⟩ fun r log' logged => ?_
    obtain rfl := logged
    exact ih r (ends r) owed.serve

theorem turn_serves (env : SafetyEnvelope) (ctx : FlightCtx) (even : Alternating log none) :
    Serves (turn env ctx) (fun _ owed => owed = none) log := by
  refine .alone_step ⟨_, even, fun _ => rfl⟩ fun got log' logged => ?_
  obtain rfl := logged
  cases got with
  | none => exact .alone_done ⟨_, even.receive, rfl⟩
  | some parsed =>
    change Serves (serving (handle env ctx parsed) >>= _) _ _
    refine .bind (serving_serves (handle_replies env ctx parsed) even.receive) ?_ ?_
    · rintro r log ⟨owed, alternating, ⟨r', same, replies⟩, rfl⟩
      obtain rfl := Except.ok.inj same
      refine .alone_step ⟨_, alternating, by simp⟩ fun (sent : Bool) log' logged => ?_
      obtain rfl := logged
      have even := alternating.send (r := sent) replies
      cases sent with
      | true => exact .alone_done ⟨_, even, rfl⟩
      | false =>
        refine .alone_step ⟨_, even, fun _ => rfl⟩ fun rebuilt log' logged => ?_
        obtain rfl := logged
        exact .alone_done ⟨_, even.between (.inr rfl), rfl⟩
    · rintro e log ⟨owed, -, ⟨r, absurd, -⟩, -⟩
      cases absurd

theorem repLoop_serves (env : SafetyEnvelope) (ctx : FlightCtx) (turns : Nat)
    (even : Alternating log none) :
    Serves (repLoop env ctx turns) (fun _ owed => owed = none) log := by
  induction turns generalizing log with
  | zero => exact .alone_done ⟨_, even, rfl⟩
  | succ turns ih =>
    refine .alone_step ⟨_, even, fun _ => rfl⟩ fun stop log' logged => ?_
    obtain rfl := logged
    have even := even.between (r := stop) (.inl rfl)
    cases stop with
    | true => exact .alone_done ⟨_, even, rfl⟩
    | false =>
      change Serves (turn env ctx >>= _) _ _
      refine .bind (turn_serves env ctx even) ?_ ?_
      · rintro again log ⟨owed, alternating, rfl⟩
        cases again with
        | true => exact ih alternating
        | false => exact .alone_done ⟨_, alternating, rfl⟩
      · rintro e log ⟨owed, alternating, rfl⟩
        exact ⟨_, alternating, rfl⟩

/-- At every point of every run of the loop; and where it ends, no reply is owed. -/
theorem loop_alternates {env : SafetyEnvelope} {ctx : FlightCtx} {turns : Nat} {path : List _}
    {p : RepCode Unit} (run : Run (Turn RepOp.logged) (repLoop env ctx turns, []) path (p, log)) :
    ∃ owed, Alternating log owed ∧ ((∀ op next, p ≠ .step op next) → owed = none) := by
  have serves := Program.Holds.along run (repLoop_serves env ctx turns .nil)
  cases p with
  | done a =>
    obtain ⟨owed, alternating, nothing⟩ := serves.returned
    exact ⟨owed, alternating, fun _ => nothing⟩
  | raise e =>
    obtain ⟨owed, alternating, nothing⟩ := serves log .refl
    exact ⟨owed, alternating, fun _ => nothing⟩
  | step op next =>
    obtain ⟨owed, alternating, -⟩ := serves.now_good
    exact ⟨owed, alternating, fun ended => absurd rfl (ended op next)⟩

/-! ## The catch-all -/

/-- The ways in which a request that parses ends in an exception: `voice_confirmed`
or the name of a parameter is read from arguments that have it with another type, or
are no object. -/
inductive Throws (env : SafetyEnvelope) (ctx : FlightCtx) (c : ToolCall) (o : Outside)
    (s : SafetyState) : Prop where
  | gate {what : String} (tool : c.name = "arm") (notAborted : s.aborted = false)
      (required : env.requireSpokenArm = true) (unarmed : s.armedWithVoice = false)
      (unreadable : c.args.valueBool "voice_confirmed" false = .error what) : Throws env ctx c o s
  | handler {what : String} (tool : readsName c.name) (notAborted : s.aborted = false)
      (unnamed : Unnamed c what) : Throws env ctx c o s
  | commit {what : String} (throws : ArmsThenThrows env ctx c o s what) : Throws env ctx c o s

section Throws
variable (o : Outside) (s : SafetyState) {env : SafetyEnvelope} {ctx : FlightCtx} {c : ToolCall}
  {what : String}

theorem dispatch_raises_iff : ((dispatch c ctx).run o.answer s).result = .error what ↔
    readsName c.name ∧ Unnamed c what := by
  constructor
  · intro raised
    have formed := (dispatch_formed c ctx).run o.answer s
    rw [raised] at formed
    exact formed
  · rintro ⟨tool, unnamed⟩
    have unnamed : c.args.valueString "name" "" = .error what := unnamed
    unfold dispatch
    rcases tool with tool | tool
    · have found : handlers.lookup c.name = some handleSetParam := tool ▸ rfl
      simp [found, handleSetParam, unnamed]
    · have found : handlers.lookup c.name = some handleGetParam := tool ▸ rfl
      simp [found, handleGetParam, unnamed]

theorem gate_raises_iff : gate c.name c.args env s = .error what ↔
    c.name = "arm" ∧ s.aborted = false ∧ env.requireSpokenArm = true ∧ s.armedWithVoice = false ∧
      c.args.valueBool "voice_confirmed" false = .error what := by
  unfold gate
  by_cases arm : c.name = "arm"
  · rw [arm]
    cases s.aborted <;> cases env.requireSpokenArm <;> cases s.armedWithVoice <;>
      cases c.args.valueBool "voice_confirmed" false <;> simp [isEmergencyFollowup, Except.map]
  · simp only [arm, false_and, iff_false, beq_iff_eq, Bool.and_eq_true]
    split
    · simp
    · simp only [if_false]
      split <;> simp

theorem passes_readsName (tool : readsName c.name) : Passes env s c ↔ s.aborted = false := by
  unfold Passes gate
  rcases tool with tool | tool <;> rw [tool] <;> cases s.aborted <;>
    simp [isEmergencyFollowup, checkLimits]

theorem finish_raises_iff (what : String) :
    ((finish ctx c).run o.answer s).result = .error what ↔ (readsName c.name ∧ Unnamed c what) ∨
      (c.name = "arm" ∧ ctx.action = true ∧ o.action .arm = .success ∧
        c.args.valueBool "voice_confirmed" false = .error what) := by
  have finished := finish_run o s ctx c
  have dispatched : ((dispatch c ctx).run o.answer s).result = .error what ↔
      readsName c.name ∧ Unnamed c what := dispatch_raises_iff o s
  constructor
  · intro raised
    cases first : ((dispatch c ctx).run o.answer s).result with
    | error e =>
      simp only [first] at finished
      rw [finished] at raised
      exact .inl (dispatched.mp (first.trans raised))
    | ok r =>
      cases accepted : r.ok with
      | false =>
        simp only [first, accepted, Bool.false_eq_true, if_false] at finished
        rw [finished, first] at raised
        cases raised
      | true =>
        simp only [first, accepted, if_true] at finished
        rw [finished] at raised
        cases stored : ((commit c).run o.answer ((dispatch c ctx).run o.answer s).state).result with
        | ok u => simp [stored, Except.map] at raised
        | error e =>
          simp only [stored, Except.map, Except.error.injEq] at raised
          obtain rfl := raised
          obtain ⟨tool, unreadable⟩ := (commit_raises_iff o _ c e).mp stored
          obtain ⟨ready, armed⟩ := dispatch_arm_ok o s tool first accepted
          exact .inr ⟨tool, ready, armed, unreadable⟩
  · rintro (unnamed | ⟨tool, ready, armed, unreadable⟩)
    · simp only [dispatched.mpr unnamed] at finished
      rw [finished]
    · have stored := (commit_raises_iff o s c what).mpr ⟨tool, unreadable⟩
      simp only [dispatch_arm_run o s tool ready, armed, actionReply, if_true, ok] at finished
      rw [finished, stored]
      rfl

theorem serve_raises_iff :
    (∃ what, ((serve env ctx c).run o.answer s).result = .error what) ↔ Throws env ctx c o s := by
  obtain ⟨reads, served, -⟩ := serve_run o s env ctx c
  rw [served]
  cases decided : gate c.name c.args env s with
  | error e =>
    obtain ⟨tool, notAborted, required, unarmed, unreadable⟩ := (gate_raises_iff s).mp decided
    exact ⟨fun _ => .gate tool notAborted required unarmed unreadable, fun _ => ⟨e, rfl⟩⟩
  | ok d =>
    have only_allowed (passes : Passes env s c) : d.allow = true := by
      obtain ⟨d', same, allowed⟩ := passes
      exact Except.ok.inj (decided.symm.trans same) ▸ allowed
    constructor
    · rintro ⟨what, raised⟩
      cases allowed : d.allow with
      | false => simp [allowed] at raised
      | true =>
        simp only [allowed, if_true] at raised
        have passes : Passes env s c := ⟨d, decided, allowed⟩
        rcases (finish_raises_iff o s what).mp raised with ⟨tool, unnamed⟩ | ⟨tool, ready, armed, unreadable⟩
        · exact .handler tool ((passes_readsName s tool).mp passes) unnamed
        · obtain ⟨notAborted, unread⟩ := (passes_arm_unread s tool unreadable).mp passes
          exact .commit ⟨tool, ready, notAborted, unread, armed, unreadable⟩
    · intro throws
      cases throws with
      | gate tool notAborted required unarmed unreadable =>
        have raised := (gate_raises_iff s).mpr ⟨tool, notAborted, required, unarmed, unreadable⟩
        rw [decided] at raised
        cases raised
      | @handler what tool notAborted unnamed =>
        have allowed := only_allowed ((passes_readsName s tool).mpr notAborted)
        simp only [allowed, if_true]
        exact ⟨what, (finish_raises_iff o s what).mpr (.inl ⟨tool, unnamed⟩)⟩
      | @commit what throws =>
        have passes := (passes_arm_unread s throws.tool throws.unreadable).mpr
          ⟨throws.notAborted, throws.unread⟩
        simp only [only_allowed passes, if_true]
        exact ⟨what, (finish_raises_iff o s what).mpr
          (.inr ⟨throws.tool, throws.ready, throws.accepted, throws.unreadable⟩)⟩

end Throws

/-- A request with an id that ends in the catch-all: its `name` is no string, or its
handling throws. -/
def Forgets (env : SafetyEnvelope) (ctx : FlightCtx) (parsed : Parsed) (o : Outside)
    (s : SafetyState) : Prop :=
  ∃ j id, parsed = .value j ∧ j.find? "request_id" = some (.string id) ∧ id ≠ "" ∧
    ((∃ what, j.valueString "name" "" = .error what) ∨
      ∃ c, ToolCall.fromJson j = .ok c ∧ Throws env ctx c o s)

theorem requestId_of_handle (env : SafetyEnvelope) (ctx : FlightCtx) (o : Outside)
    (s : SafetyState) {j : Json} {id : String}
    (named : j.find? "request_id" = some (.string id)) :
    ∃ r, ((handle env ctx (.value j)).run o.answer s).result = .ok r ∧
      (r.requestId = id ↔ ¬ Forgets env ctx (.value j) o s) := by
  have only (forgets : Forgets env ctx (.value j) o s) : id ≠ "" ∧
      ((∃ what, j.valueString "name" "" = .error what) ∨
        ∃ c, ToolCall.fromJson j = .ok c ∧ Throws env ctx c o s) := by
    obtain ⟨j', id', same, named', some_id, ends⟩ := forgets
    obtain rfl := Parsed.value.inj same
    obtain rfl := Json.string.inj (Option.some.inj (named.symm.trans named'))
    exact ⟨some_id, ends⟩
  have read := fromJson_named named
  cases tool : j.valueString "name" "" with
  | error what =>
    have unparsed (c : ToolCall) : ¬ (Parsed.value j).Call c := by
      rintro ⟨j', same, called⟩
      obtain rfl := Parsed.value.inj same
      rw [read, tool] at called
      cases called
    obtain ⟨text, ran⟩ := handle_unparsed_run o s env ctx unparsed
    refine ⟨badRequest text, by rw [ran], fun same forgets => (only forgets).1 same.symm, ?_⟩
    intro kept
    exact Classical.byContradiction fun other => kept
      ⟨j, id, rfl, named, fun empty => other empty.symm, .inl ⟨what, tool⟩⟩
  | ok name =>
    rw [tool] at read
    obtain ⟨c, read, same_id⟩ : ∃ c, ToolCall.fromJson j = .ok c ∧ c.requestId = id :=
      ⟨_, read, rfl⟩
    have raises : (∃ what, ((serve env ctx c).run o.answer s).result = .error what) ↔
        Throws env ctx c o s := serve_raises_iff o s
    rw [handle_call_run o s env ctx ⟨j, rfl, read⟩]
    cases served : ((serve env ctx c).run o.answer s).result with
    | error what =>
      refine ⟨badRequest what, rfl, fun same forgets => (only forgets).1 same.symm, ?_⟩
      intro kept
      exact Classical.byContradiction fun other => kept
        ⟨j, id, rfl, named, fun empty => other empty.symm, .inr ⟨c, read, raises.mp ⟨what, served⟩⟩⟩
    | ok r =>
      have formed := (serve_formed env ctx c).run o.answer s
      rw [served] at formed
      refine ⟨r, rfl, fun _ forgets => ?_, fun _ => formed.1.trans same_id⟩
      rcases (only forgets).2 with ⟨what, failed⟩ | ⟨c', called, throws⟩
      · rw [tool] at failed
        cases failed
      · obtain rfl := Except.ok.inj (read.symm.trans called)
        obtain ⟨what, raised⟩ := raises.mpr throws
        rw [served] at raised
        cases raised

/-- The loop sends one reply for each request before it receives the next, and before it
ends: an object with a boolean `ok`. The reply names the request that has an id, except where the
request ends in the catch-all. -/
theorem reply_law (env : SafetyEnvelope) (ctx : FlightCtx) (parsed : Parsed) (o : Outside)
    (s : SafetyState) :
    (∀ turns path p log, Run (Turn RepOp.logged) (repLoop env ctx turns, []) path (p, log) →
      ∃ owed, Alternating log owed ∧ ((∀ op next, p ≠ .step op next) → owed = none)) ∧
    ∃ r, ((handle env ctx parsed).run o.answer s).result = .ok r ∧
      (((∃ members, reply parsed r = .object members) ∧
        (∃ ok, (reply parsed r).find? "ok" = some (.boolean ok)) ∧
        ∀ id, Identified parsed id →
          (reply parsed r).find? "request_id" = some (.string id)) ↔
      ¬ Forgets env ctx parsed o s) := by
  refine ⟨fun turns path p log run => loop_alternates run, ?_⟩
  obtain ⟨r, replied, replies⟩ := (handle_replies env ctx parsed).run o.answer s
  refine ⟨r, replied, ?_⟩
  by_cases identified : ∃ id, Identified parsed id
  · obtain ⟨id, j, rfl, named⟩ := identified
    obtain ⟨r', replied', kept⟩ := requestId_of_handle env ctx o s named
    obtain rfl := Except.ok.inj (replied.symm.trans replied')
    have sent : (reply (.value j) r).find? "request_id" = some (.string r.requestId) := rfl
    rw [← kept, sent]
    constructor
    · rintro ⟨-, -, names⟩
      exact Json.string.inj (Option.some.inj (names id ⟨j, rfl, named⟩))
    · rintro rfl
      refine ⟨replies.isObject, replies.ok, ?_⟩
      rintro id ⟨j', same, named'⟩
      obtain rfl := Parsed.value.inj same
      exact named.symm.trans named'
  · refine ⟨fun _ => ?_, fun _ => ⟨replies.isObject, replies.ok, fun id named => ?_⟩⟩
    · rintro ⟨j, id, same, named, -⟩
      exact identified ⟨id, j, same, named⟩
    · exact absurd ⟨id, named⟩ identified

/-- `{"request_id": "7", "name": "set_param", "args": null}` -/
def namelessParam : Json :=
  .object [("request_id", .string "7"), ("name", .string "set_param"), ("args", .null)]

/-- It is answered with the request id `""`. -/
theorem nameless_param_forgotten : ¬ ∀ (env : SafetyEnvelope) (ctx : FlightCtx) (parsed : Parsed)
    (o : Outside) (s : SafetyState) (r : ToolResult) (id : String),
    ((handle env ctx parsed).run o.answer s).result = .ok r → Identified parsed id →
      (reply parsed r).find? "request_id" = some (.string id) := by
  intro claimed
  have echoed := claimed {} {} (.value namelessParam) .nominal {} _ "7" rfl ⟨_, rfl, rfl⟩
  exact absurd echoed (by decide)

end Lexaire.Bridge
