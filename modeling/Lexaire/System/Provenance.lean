import Lexaire.Core.Crew
import Lexaire.System.ExactlyOnce

/-! Where a command to the vehicle comes from. What the main thread dispatches is planned: it is
the next call of the VLM's decision at hand, or the abort. A planned call puts one request
on the wire at most, and the bridge handles a request once at most. -/
namespace Lexaire.System
open Atomic Transition Lexaire.Orchestrator
open Lexaire.Bridge (Outside Parsed handle lossCommand)

/-- The calls that the main thread was last told to make, and how many of them it has made. -/
structure Plan where
  number : Nat := 0
  calls : List ToolCall := []
  made : Nat := 0

/-- A decision of the VLM, or the id for an abort. -/
def planned? : (op : Orchestrator.Op) → op.Answer → Option (List ToolCall)
  | .vlmResult, .ok decision => some decision.toolCalls
  | .newRequestId, requestId => some [{ requestId, name := "abort" }]
  | _, _ => none

def Plan.performed (plan : Plan) (op : Orchestrator.Op) (r : op.Answer) : Plan :=
  match planned? op r with
  | some calls => { number := plan.number + 1, calls }
  | none => if isCall op then { plan with made := plan.made + 1 } else plan

def Plan.after (plan : Plan) : Label → Plan
  | .performs op r => plan.performed op r
  | .returns _ => { plan with made := plan.made + 1 }
  | _ => plan

/-- The plan at the end of a history. -/
def plan (path : Path) : Plan := path.foldl (fun plan p => plan.after p.2) {}

theorem plan_snoc (path : Path) (p : State × Label) : plan (path ++ [p]) = (plan path).after p.2 := by
  simp [plan]

/-- The call that the plan has next. -/
def Plan.next? (plan : Plan) : Option ToolCall := plan.calls[plan.made]?

/-- One place of one plan comes before another, or belongs to an earlier plan. -/
structure Plan.Before (p q : Plan) : Prop where
  number : p.number ≤ q.number
  made : p.number = q.number → p.made < q.made

/-! ## The main thread keeps to its plan -/

def plans (op : Orchestrator.Op) (plan : Plan) (r : op.Answer) (after : Plan) : Prop :=
  after = plan.performed op r

def Follows (op : Orchestrator.Op) (plan : Plan) : Prop :=
  ∀ tc, op = .dispatchToolCall tc → plan.next? = some tc

abbrev Planned {α : Type} (post : α → Plan → Prop) (p : Orchestrator.Code α) (plan : Plan) : Prop :=
  Program.Leads plans Follows post p plan

/-- The operations that make a plan or take a step of it. -/
def steers : Orchestrator.Op → Bool
  | .vlmResult | .newRequestId | .dispatchToolCall _ => true
  | _ => false

section
variable {α β : Type} {post : α → Plan → Prop} {plan : Plan} {op : Orchestrator.Op}

theorem performed_aside (aside : steers op = false) (r : op.Answer) : plan.performed op r = plan := by
  cases op with
  | vlmResult | newRequestId | dispatchToolCall => cases aside
  | _ => rfl

theorem follows_aside (aside : steers op = false) : Follows op plan := by
  rintro tc rfl
  cases aside

theorem planned_call {f : op.Answer → Orchestrator.Code α} (aside : steers op = false)
    (rest : ∀ r, Planned post (f r) plan) : Planned post (op.call >>= f : Orchestrator.Code α) plan := by
  refine .alone_step (follows_aside aside) ?_
  rintro r _ rfl
  rw [performed_aside aside]
  exact rest r

/-- Code that leaves the plan alone. -/
theorem planned_aside {p : Orchestrator.Code β} {f : β → Orchestrator.Code α}
    (aside : p.All (steers · = false)) (rest : ∀ b, Planned post (f b) plan) :
    Planned post (p >>= f) plan := by
  have kept : Planned (fun _ after => after = plan) p plan := by
    refine .alone_all (P := (· = plan)) aside ?_ ?_ ?_ rfl
    · rintro op _ r _ aside rfl rfl
      exact performed_aside aside r
    · exact fun op _ aside _ => follows_aside aside
    · exact fun _ _ same _ _ => same
  refine Program.Leads.bind kept ?_
  rintro b _ rfl
  exact rest b

theorem planned_ends {a : α} : Planned (fun _ _ => True) (.done a) plan :=
  Program.Leads.done trivial

theorem recordSkipped_aside (reason : String) (skipped : List ToolCall) :
    (recordSkipped reason skipped).All (steers · = false) :=
  recordSkipped_all (fun _ => rfl) reason skipped

theorem dispatchBatch_planned {batch : List ToolCall} (due : plan.calls.drop plan.made = batch) :
    Planned (fun _ _ => True) (dispatchBatch batch) plan := by
  induction batch generalizing plan with
  | nil => exact planned_ends
  | cons tc rest ih =>
    refine planned_aside (interrupted_all rfl rfl) fun cut => ?_
    have skips (reason : String) (skipped : List ToolCall) (ended : BatchEnd) (plan : Plan) :
        Planned (fun _ _ => True) (recordSkipped reason skipped >>= fun _ => pure ended) plan :=
      planned_aside (recordSkipped_aside reason skipped) fun _ => planned_ends
    cases cut with
    | true => exact skips _ _ _ _
    | false =>
      refine .alone_step ?_ ?_
      · rintro _ ⟨⟩
        rw [Plan.next?, ← List.head?_drop, due]
        rfl
      rintro result _ rfl
      have due : plan.calls.drop (plan.made + 1) = rest := by
        rw [← List.tail_drop, due]
        rfl
      refine planned_call rfl fun _ => ?_
      cases verdict tc result with
      | offline | terminal => exact skips _ _ _ _
      | failed =>
        refine planned_call rfl fun mission => planned_aside (recordSkipped_aside _ rest) fun _ => ?_
        split <;> exact planned_ends
      | next => exact ih due

theorem decisionLoop_planned (text : String) (left decisionCount : Nat) :
    Planned (fun _ _ => True) (decisionLoop text left decisionCount) plan := by
  induction left generalizing decisionCount plan with
  | zero => exact planned_ends
  | succ left ih =>
    refine planned_call rfl fun stopped => ?_
    cases stopped with
    | true => exact planned_ends
    | false =>
      refine planned_aside (overtaken_all rfl rfl) fun overtaken => ?_
      cases overtaken with
      | true => exact planned_ends
      | false =>
        refine planned_call rfl fun mission => planned_call rfl fun _ => ?_
        refine planned_call rfl fun _ => planned_call rfl fun _ => planned_call rfl fun preempted => ?_
        cases preempted with
        | true => exact planned_ends
        | false =>
          refine planned_call rfl fun stopped => ?_
          cases stopped with
          | true => exact planned_ends
          | false =>
            refine .alone_step (by rintro _ ⟨⟩) ?_
            rintro result _ rfl
            cases result with
            | error what => exact planned_ends
            | ok decision =>
              change Planned _ (if decision.toolCalls = [] then _ else _) _
              split
              · split <;> exact planned_ends
              · refine planned_call rfl fun _ => ?_
                refine Program.Leads.bind (dispatchBatch_planned rfl) fun ended plan _ => ?_
                cases ended with
                | failed | through => exact ih (decisionCount + 1)
                | _ => exact planned_ends

theorem mission_planned (maxSteps : Int) (text : String) :
    Planned (fun _ _ => True) (mission maxSteps text) plan := by
  refine planned_call rfl fun _ => ?_
  refine Program.Leads.bind (decisionLoop_planned text maxSteps.toNat 0) fun ended plan _ => ?_
  refine planned_aside (endReason_all (by rfl) (by rfl) maxSteps ended) fun reason => ?_
  refine planned_call rfl fun mission => planned_call rfl fun _ => ?_
  split
  · exact planned_call rfl fun _ => planned_ends
  · split
    · exact planned_ends
    · exact planned_call rfl fun _ => planned_ends

theorem abort_planned (text : String) : Planned (fun _ _ => True) (Orchestrator.abort text) plan := by
  refine planned_call rfl fun _ => .alone_step (by rintro _ ⟨⟩) ?_
  rintro requestId _ rfl
  refine .alone_step (by rintro _ ⟨⟩; rfl) ?_
  rintro result _ rfl
  have noted (plan : Plan) : Planned (fun _ _ => True)
      ((Op.appendHistory (.aborted text result)).call : Orchestrator.Code Unit) plan :=
    planned_call rfl fun _ => planned_ends
  change Planned _ (if _ then _ else _) _
  split
  · refine planned_call rfl fun lost => ?_
    cases lost <;> exact planned_call rfl fun _ => noted _
  · exact noted _

theorem onCommand_planned (settings : Orchestrator.Settings) (cmd : VoiceCommand) :
    Planned (fun _ _ => True) (onCommand settings cmd) plan := by
  refine planned_call rfl fun _ => planned_call rfl fun _ => planned_call rfl fun _ => ?_
  split
  · exact abort_planned cmd.text
  · exact mission_planned settings.maxSteps cmd.text

end

/-! ## A call sends once at most -/

def sends : Signal WireOp WireOp.Answer where
  heeds _ _ := True
  costs
    | .send _, .ok _ => 1
    | _, _ => 0

/-- The requests that a call has sent so far. -/
def spent (trace : List (Event WireOp.Answer)) : Nat := (trace.map fun e => sends.costs e.1 e.2).sum

abbrev Sending {α : Type} (n : Nat) (p : Wire α) : Prop := p.Spends sends (fun _ => True) n

theorem onWireError_sends (tc : ToolCall) (e : WireException) : Sending 0 (onWireError tc e) := by
  cases e with
  | recursionError => trivial
  | caught e =>
    cases e with
    | again | zmq what =>
      exact .free_step (fun _ => rfl) fun _ _ => .free_step (fun _ => rfl) fun _ _ =>
        .free_step (fun _ => rfl) fun _ _ => trivial
    | parse what => exact .free_step (fun _ => rfl) fun _ _ => trivial

theorem exchange_sends (tc : ToolCall) (args : List (String × Json)) : Sending 1 (exchange tc args) := by
  refine .free_step (fun _ => rfl) fun made _ => ?_
  cases made with
  | error e => trivial
  | ok made =>
    intro handed _
    cases handed with
    | error e => exact ⟨Nat.zero_le 1, trivial⟩
    | ok handed =>
      refine ⟨le_refl 1, .free_step (fun _ => rfl) fun reply _ => ?_⟩
      cases reply with
      | error e => trivial
      | ok reply =>
        cases reply with
        | object members => exact .free_step (fun _ => rfl) fun _ _ => trivial
        | _ => trivial

theorem dispatchToolCall_sends (tc : ToolCall) : Sending 1 (dispatchToolCall tc) := by
  refine .free_step (fun _ => rfl) fun offline _ => ?_
  cases offline with
  | true => exact .free_step (fun _ => rfl) fun _ _ => trivial
  | false =>
    have sends (args : List (String × Json)) : Sending 1 ((exchange tc args).catching (onWireError tc)) :=
      (exchange_sends tc args).catching (onWireError_sends tc)
    change Sending 1 (authorizedArgs tc >>= _)
    unfold authorizedArgs
    split
    · exact .free_step (fun _ => rfl) fun authorized _ => sends _
    · exact sends _

/-! ## Runs -/

namespace Plan
variable {p q r : Plan}

theorem Before.trans (first : p.Before q) (second : q.Before r) : p.Before r := by
  refine ⟨first.number.trans second.number, fun same => ?_⟩
  have left : p.number = q.number := le_antisymm first.number (same ▸ second.number)
  exact (first.made left).trans (second.made (left ▸ same))

/-- A step that changes the plan moves on in it, or to a new one. -/
theorem after_cases (p : Plan) (e : Label) : p.after e = p ∨ p.Before (p.after e) := by
  have later (calls : List ToolCall) : p.Before { number := p.number + 1, calls } :=
    ⟨Nat.le_succ _, fun same => absurd same (Nat.succ_ne_self _).symm⟩
  have further : p.Before { p with made := p.made + 1 } := ⟨le_refl _, fun _ => Nat.lt_succ_self _⟩
  cases e with
  | performs op r =>
    change p.performed op r = p ∨ p.Before (p.performed op r)
    unfold Plan.performed
    cases planned? op r with
    | some calls => exact .inr (later calls)
    | none =>
      cases isCall op with
      | true => exact .inr further
      | false => exact .inl rfl
  | returns result => exact .inr further
  | _ => exact .inl rfl

end Plan

/-- The main thread follows its plan, an open call has spent what it sent, and every send had
a place of its own. -/
structure Guided (path : Path) (s : State) : Prop where
  planned : ∀ {cmd rest}, s.task = some ⟨cmd, rest⟩ → Planned (fun _ _ => True) rest (plan path)
  sparing : ∀ {call}, s.session.call = some call → ∃ n, Sending n call.rest ∧ n + spent call.trace ≤ 1
  used : ∀ {first u request second}, path = first ++ (u, .wires (.send request) (.ok ())) :: second →
    (plan first).Before (plan path) ∨
      plan first = plan path ∧ ∃ call, s.session.call = some call ∧ 0 < spent call.trace

namespace Guided
variable {cfg : Settings} {path : Path} {s s' : State} {e : Label}

theorem initial : Guided [] {} := ⟨by simp, by simp, by simp⟩

theorem spent_snoc (trace : List (Event WireOp.Answer)) (e : Event WireOp.Answer) :
    spent (trace ++ [e]) = spent trace + sends.costs e.1 e.2 := by
  simp [spent]

theorem planned_step (inv : Guided path s) (moved : Next cfg s e s') {cmd : VoiceCommand}
    {rest : Orchestrator.Code Unit} (left : s'.task = some ⟨cmd, rest⟩) :
    Planned (fun _ _ => True) rest (plan (path ++ [(s, e)])) := by
  rw [plan_snoc]
  cases moved with
  | takes idle =>
    obtain ⟨rfl, rfl⟩ := Task.mk.inj (Option.some.inj left)
    exact onCommand_planned cfg.orchestrator _
  | performs at_op own effect =>
    obtain ⟨rfl, rfl⟩ := Task.mk.inj (Option.some.inj left)
    exact (inv.planned at_op).performed rfl
  | returns at_op moved =>
    obtain ⟨rfl, rfl⟩ := Task.mk.inj (Option.some.inj left)
    exact (inv.planned at_op).performed rfl
  | finishes ended => cases left
  | _ => exact inv.planned left

theorem sparing_step (inv : Guided path s) (moved : Next cfg s e s') {call : Calling}
    (calling : s'.session.call = some call) : ∃ n, Sending n call.rest ∧ n + spent call.trace ≤ 1 := by
  cases moved with
  | calls at_op moved =>
    cases moved with
    | calls between =>
      obtain rfl := Option.some.inj calling
      exact ⟨1, dispatchToolCall_sends _, le_refl 1⟩
  | @wires op r session moved =>
    cases moved with
    | wires at_op effect =>
      obtain rfl := Option.some.inj calling
      obtain ⟨n, sending, within⟩ := inv.sparing at_op
      obtain ⟨paid, rest⟩ := sending r trivial
      refine ⟨n - sends.costs op r, rest, ?_⟩
      rw [spent_snoc]
      change n - sends.costs op r + (_ + sends.costs op r) ≤ 1
      rw [Nat.add_comm _ (sends.costs op r), ← Nat.add_assoc, Nat.sub_add_cancel paid]
      exact within
  | returns at_op moved =>
    cases moved with
    | returns ended => cases calling
  | _ => exact inv.sparing calling

/-- A call that has sent stays open, unless it returns. -/
theorem open_step (moved : Next cfg s e s') (still : (plan path).after e = plan path)
    {call : Calling} (calling : s.session.call = some call) (sent : 0 < spent call.trace) :
    ∃ call, s'.session.call = some call ∧ 0 < spent call.trace := by
  cases moved with
  | calls at_op moved =>
    cases moved with
    | calls between =>
      rw [between] at calling
      cases calling
  | wires moved =>
    cases moved with
    | wires at_op effect =>
      obtain rfl := Option.some.inj (at_op.symm.trans calling)
      refine ⟨_, rfl, ?_⟩
      rw [spent_snoc]
      exact Nat.add_pos_left sent _
  | returns at_op moved =>
    have further : (plan path).made + 1 = (plan path).made := congrArg Plan.made still
    exact absurd further (Nat.succ_ne_self _)
  | _ => exact ⟨call, calling, sent⟩

theorem used_step (inv : Guided path s) (moved : Next cfg s e s') {first second : Path} {u : State}
    {request : Json}
    (split : path ++ [(s, e)] = first ++ (u, .wires (.send request) (.ok ())) :: second) :
    (plan first).Before (plan (path ++ [(s, e)])) ∨
      plan first = plan (path ++ [(s, e)]) ∧ ∃ call, s'.session.call = some call ∧ 0 < spent call.trace := by
  rw [plan_snoc]
  rcases List.eq_nil_or_concat' second with rfl | ⟨second, q, rfl⟩
  · obtain ⟨rfl, last⟩ := List.append_inj' split rfl
    obtain ⟨rfl, rfl⟩ := Prod.mk.inj (List.singleton_inj.mp last)
    refine .inr ⟨rfl, ?_⟩
    cases moved with
    | wires moved =>
      cases moved with
      | wires at_op effect =>
        refine ⟨_, rfl, ?_⟩
        rw [spent_snoc]
        exact Nat.succ_pos _
  · rw [← List.cons_append, ← List.append_assoc] at split
    obtain ⟨earlier, -⟩ := List.append_inj' split rfl
    rcases inv.used earlier, (plan path).after_cases e with ⟨before | ⟨same, call, calling, sent⟩, still | on⟩
    · exact .inl (still.symm ▸ before)
    · exact .inl (before.trans on)
    · exact .inr ⟨same.trans still.symm, open_step moved still calling sent⟩
    · exact .inl (same ▸ on)

theorem step (inv : Guided path s) (moved : Next cfg s e s') : Guided (path ++ [(s, e)]) s' :=
  ⟨inv.planned_step moved, inv.sparing_step moved, inv.used_step moved⟩

theorem reached (run : Run (Next cfg) {} path s) : Guided path s :=
  run.invariant_history (fun _ _ => True) (fun inv _ moved => inv.step moved) .initial
    fun _ _ _ _ => trivial

/-- At a send no earlier request has this place of the plan. -/
theorem places (inv : Guided path s) {request : Json}
    (moved : Next cfg s (.wires (.send request) (.ok ())) s') {first second : Path} {u : State}
    {earlier : Json} (split : path = first ++ (u, .wires (.send earlier) (.ok ())) :: second) :
    (plan first).Before (plan path) := by
  rcases inv.used split with before | ⟨-, call, calling, sent⟩
  · exact before
  · cases moved with
    | wires moved =>
      cases moved with
      | wires at_op effect =>
        obtain rfl := Option.some.inj (at_op.symm.trans calling)
        obtain ⟨n, sending, within⟩ := inv.sparing at_op
        have paid : 1 ≤ n := (sending (.ok ()) trivial).1
        change 0 < spent _ at sent
        omega

end Guided

variable {cfg : Settings} {path : Path} {s : State}

/-- Whatever the delays: a command that is not the watchdog's reaches the vehicle only for the
call that stood next in the plan of the command at hand, by a request that was sent for it
before, and that is handled at no other time. No place of a plan has two requests, and they
are sent in the plan's order. -/
theorem commands_planned (run : Run (Next cfg) {} path s) :
    (∀ before h e after op, path = before ++ (h, e) :: after → op.isCommand = true →
      Invokes cfg (h, e) op →
      (∃ r, e = .watches op r ∧ op = .action (lossCommand cfg.bridge.hbAction)) ∨
      ∃ id parsed o cmd tc, ∃ next : ToolResult → Orchestrator.Code Unit, ∃ args first u second,
        e = .handles id parsed o ∧
        before = first ++ (u, .wires (.send (request tc args)) (.ok ())) :: second ∧
        u.session.link.sent.length = id ∧ parsed = .value (request tc args) ∧
        u.task = some ⟨cmd, .step (.dispatchToolCall tc) next⟩ ∧ (plan first).next? = some tc ∧
        op.ofTool tc.name = true ∧ (path.filterMap handledId?).count id = 1) ∧
    ∀ first u earlier second u' later after, path = first ++ (u, .wires (.send earlier) (.ok ())) ::
        second ++ (u', .wires (.send later) (.ok ())) :: after →
      (plan first).Before (plan (first ++ (u, .wires (.send earlier) (.ok ())) :: second)) := by
  constructor
  · intro before h e after op split command invoked
    obtain ⟨_, to_h, moved⟩ := run.split split
    rcases invoked with ⟨id, parsed, o, same, performed⟩ | watchful
    · refine .inr ?_
      cases same
      obtain ⟨c, call, -, tool⟩ := Bridge.handle_command command performed
      cases moved with
      | handles sent fresh carried answered =>
        obtain ⟨cmd, tc, ⟨u, next, member, task, number⟩, args, rfl, -⟩ :=
          (Coherent.reached to_h).sent sent
        obtain ⟨j, rfl, read⟩ := call
        obtain rfl := carried
        rw [fromJson_request] at read
        obtain rfl := Except.ok.inj read
        obtain ⟨first, second, rfl⟩ := List.append_of_mem member
        obtain ⟨_, to_u, -⟩ := to_h.split rfl
        have due := ((Guided.reached to_u).planned task).now_good
        have whole := Ledger.reached run
        refine ⟨id, _, o, cmd, tc, next, args, first, u, second, rfl, rfl, number, rfl, task,
          due tc rfl, tool, ?_⟩
        rw [whole.handled, List.count_reverse]
        refine List.count_eq_one_of_mem whole.once ?_
        rw [← List.mem_reverse, ← whole.handled, split]
        exact List.mem_filterMap.mpr ⟨_, List.mem_append_right _ List.mem_cons_self, rfl⟩
    · have loss := watchful_command run split watchful command
      obtain ⟨r, same⟩ := watchful
      exact .inl ⟨r, same, loss⟩
  · intro first u earlier second u' later after split
    obtain ⟨_, to_send, moved⟩ := run.split split
    exact (Guided.reached to_send).places moved rfl

/-- The pilot asks for a hold, and the vehicle holds. -/
theorem commands_planned_hold : ∃ path s before h e after first u second tc args,
    Run (Next plainSettings) {} path s ∧ path = before ++ (h, e) :: after ∧
    Invokes plainSettings (h, e) (.action .hold) ∧
    before = first ++ (u, .wires (.send (request tc args)) (.ok ())) :: second ∧
    (plan first).next? = some tc ∧ tc.name = "hold" := by
  have checked : (replay (step? plainSettings) {} heldLabels).any
      (fun ran => ran.1.any (performs plainSettings (.action .hold))) = true := by
    decide +kernel
  obtain ⟨⟨path, s⟩, ran, found⟩ := (Option.any_eq_true _ _).mp checked
  obtain ⟨⟨h, e⟩, member, invoked⟩ := List.any_eq_true.mp found
  have invoked : Invokes plainSettings (h, e) (.action .hold) := .inl (performs_sound invoked)
  obtain ⟨before, after, split⟩ := List.append_of_mem member
  have run := run_of_script ran
  rcases (commands_planned run).1 before h e after _ split rfl invoked with ⟨r, -, loss⟩ | planned
  · cases loss
  · obtain ⟨id, parsed, o, cmd, tc, next, args, first, u, second, -, sent, -, -, -, due, tool, -⟩ := planned
    exact ⟨path, s, before, h, e, after, first, u, second, tc, args, run, split, invoked, sent, due,
      eq_of_beq tool⟩

end Lexaire.System
