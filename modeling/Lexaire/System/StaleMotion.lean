import Lexaire.System.SpokenArm

/-! Requests that outlive their call. A call that timed out leaves its request with
the transport, and only the abort latch stands between a late arrival and the
vehicle. The latch holds from an abort in the air to the end of the session; an
abort on the ground does not set it, and nothing then stops a late arm. -/
namespace Lexaire.System
open Atomic Transition Lexaire.Orchestrator
open Lexaire.Bridge (Outside Parsed handle)

def motionTools : List String := ["arm", "takeoff", "goto_ned", "set_velocity_ned"]

/-- The orchestrator receives ok = true for the abort call whose request is `id`. -/
def AcknowledgesAbort (p : State × Label) (id : Nat) : Prop :=
  ∃ call reply, p.2 = .wires .recv (.ok reply) ∧ p.1.session.call = some call ∧
    call.tc.name = "abort" ∧ p.1.session.link.socket = some (.owes id) ∧
    (ToolResult.ofReply call.tc reply).ok = true

/-- The request `id` of a motion tool passes the gate and reaches MAVSDK. -/
def Moves (cfg : Settings) (p : State × Label) (id : Nat) : Prop :=
  ∃ parsed o c op, p.2 = .handles id parsed o ∧ parsed.Call c ∧ c.name ∈ motionTools ∧
    Bridge.Passes cfg.bridge.env p.1.latches c ∧ op.isCommand = true ∧
    op ∈ ((handle cfg.bridge.env cfg.bridge.ctx parsed).run o.answer p.1.latches).performed

/-- The bridge handles the request `id`, an abort, in the air or with the latch set. -/
def LatchesAbort (p : State × Label) (id : Nat) : Prop :=
  ∃ parsed o c, p.2 = .handles id parsed o ∧ parsed.Call c ∧ c.name = "abort" ∧
    (o.inAir = true ∨ p.1.latches.aborted = true)

/-- `run()` has made every plugin that an abort needs. -/
def Settings.Equipped (cfg : Settings) : Prop :=
  cfg.bridge.ctx.action = true ∧ cfg.bridge.ctx.telemetry = true ∧ cfg.bridge.ctx.safety = true

variable {cfg : Settings} {path : Path} {s s' : State} {e : Label}

theorem aborted_of_latches {id : Nat} (equipped : cfg.Equipped) (moved : Next cfg s e s')
    (latches : LatchesAbort (s, e) id) : s'.latches.aborted = true := by
  obtain ⟨parsed, o, c, same, call, abort, reason⟩ := latches
  cases same
  cases moved with
  | handles =>
    exact Bridge.handle_abort_latches equipped.1 equipped.2.1 equipped.2.2 call abort reason

theorem aborted_step (moved : Next cfg s e s') (set : s.latches.aborted = true)
    (kept : ¬ EndsSession cfg (s, e)) : s'.latches.aborted = true := by
  cases moved with
  | handles =>
    apply Bridge.handle_aborted set
    intro disarms
    exact kept (.inr ⟨_, _, _, rfl, disarms⟩)
  | @reports armed =>
    cases armed with
    | false => exact absurd (.inl rfl) kept
    | true => exact set
  | _ => exact set

/-- What the abort latch remembers, and where every reply comes from. -/
structure Remembers (cfg : Settings) (path : Path) (s : State) : Prop where
  latch : ∀ {before p after id}, path = before ++ p :: after → LatchesAbort p id →
    (∀ q ∈ after, ¬ EndsSession cfg q) → s.latches.aborted = true
  replies : ∀ {id reply}, (id, reply) ∈ s.replies →
    ∃ before t parsed o after request result, path = before ++ (t, .handles id parsed o) :: after ∧
      s.session.link.sent[id]? = some request ∧ Carried request parsed ∧
      ((handle cfg.bridge.env cfg.bridge.ctx parsed).run o.answer t.latches).result = .ok result ∧
      reply = Bridge.reply parsed result

/-- A request keeps its number. -/
theorem sent_step (moved : Next cfg s e s') {id : Nat} {request : Json}
    (known : s.session.link.sent[id]? = some request) :
    s'.session.link.sent[id]? = some request := by
  cases moved with
  | performs at_op own effect =>
    rw [linkPerforms_sent effect]
    exact known
  | calls at_op moved =>
    cases moved with
    | calls between => exact known
  | wires moved =>
    cases moved with
    | wires calling effect =>
      rcases (Link.performs_keeps effect).2 with same | ⟨latest, -, grown⟩
      · rw [same]
        exact known
      · have inside := (List.getElem?_eq_some_iff.mp known).1
        rw [grown, List.getElem?_append_left inside]
        exact known
  | returns at_op moved =>
    cases moved with
    | returns ended => exact known
  | _ => exact known

namespace Remembers

theorem initial : Remembers cfg [] {} :=
  ⟨by simp, by simp⟩

theorem step (equipped : cfg.Equipped) (inv : Remembers cfg path s) (moved : Next cfg s e s') :
    Remembers cfg (path ++ [(s, e)]) s' := by
  have earlier {id : Nat} {reply : Json} (known : (id, reply) ∈ s.replies) :
      ∃ before t parsed o after request result,
        path ++ [(s, e)] = before ++ (t, .handles id parsed o) :: after ∧
        s'.session.link.sent[id]? = some request ∧ Carried request parsed ∧
        ((handle cfg.bridge.env cfg.bridge.ctx parsed).run o.answer t.latches).result =
          .ok result ∧ reply = Bridge.reply parsed result := by
    obtain ⟨before, t, parsed, o, after, request, result, rfl, sent, carried, built⟩ :=
      inv.replies known
    exact ⟨before, t, parsed, o, after ++ [(s, e)], request, result, by simp,
      sent_step moved sent, carried, built⟩
  refine ⟨?_, ?_⟩
  · intro before p after id split latches quiet
    rcases List.eq_nil_or_concat after with rfl | ⟨after, q, rfl⟩
    · obtain ⟨-, last⟩ := List.append_inj' split rfl
      obtain rfl := List.singleton_inj.mp last
      exact aborted_of_latches equipped moved latches
    · have shorter : path ++ [(s, e)] = before ++ p :: after ++ [q] := by simpa using split
      obtain ⟨rfl, last⟩ := List.append_inj' shorter rfl
      obtain rfl := List.singleton_inj.mp last
      refine aborted_step moved (inv.latch rfl latches fun q member => ?_) (quiet _ (by simp))
      exact quiet q (by simp [member])
  · intro id reply known
    cases moved with
    | @handles id' request parsed o result sent fresh carried answered =>
      rcases List.mem_cons.mp known with same | member
      · obtain ⟨rfl, rfl⟩ := Prod.mk.inj same
        exact ⟨path, s, parsed, o, [], request, result, rfl, sent, carried, answered, rfl⟩
      · exact earlier member
    | _ => exact earlier known

theorem reached (equipped : cfg.Equipped) (run : Run (Next cfg) {} path s) :
    Remembers cfg path s :=
  run.invariant_history (fun _ _ => True) (fun inv _ moved => inv.step equipped moved) .initial
    fun _ _ _ _ => trivial

end Remembers

/-- Only a request that parses is answered with ok = true. -/
theorem parsed_of_ok {parsed : Parsed} {o : Outside} {latches : Bridge.SafetyState}
    {result : Bridge.ToolResult} {tc : ToolCall} {request : Json}
    (carried : Carried request parsed)
    (answered : ((handle cfg.bridge.env cfg.bridge.ctx parsed).run o.answer latches).result =
      .ok result)
    (accepted : (ToolResult.ofReply tc (Bridge.reply parsed result)).ok = true) :
    parsed = .value request := by
  cases parsed with
  | value j => exact congrArg Parsed.value carried
  | failed what utf8 =>
    obtain rfl := Except.ok.inj answered
    cases utf8 <;> cases accepted

/-- After an acknowledged abort that the bridge handled in the air, or with the
latch set, no request for motion gets through until the session has ended. -/
theorem abort_stops_motion (equipped : cfg.Equipped) (run : Run (Next cfg) {} path s)
    {before mid after : Path} {a m : State × Label} {id : Nat}
    (split : path = before ++ a :: mid ++ m :: after) (acknowledged : AcknowledgesAbort a id) :
    ∃ earlier h later parsed o c, before = earlier ++ h :: later ∧ h.2 = .handles id parsed o ∧
      parsed.Call c ∧ c.name = "abort" ∧
      ((o.inAir = true ∨ h.1.latches.aborted = true) →
        (∀ q ∈ later ++ a :: mid, ¬ EndsSession cfg q) → ∀ id', ¬ Moves cfg m id') := by
  obtain ⟨call, reply, received, calling, abort, owing, accepted⟩ := acknowledged
  obtain ⟨t, e⟩ := a
  obtain rfl := received
  have at_a : path = before ++ (t, .wires .recv (.ok reply)) :: (mid ++ m :: after) := by
    simpa using split
  obtain ⟨_, to_a, moved⟩ := run.split at_a
  have inv := Coherent.reached to_a
  have past := Remembers.reached equipped to_a
  -- the reply is the one to this call's request
  cases moved with
  | wires moved =>
    obtain ⟨call', calling', list, args, owing', latest⟩ :=
      inv.session.proper (moved.mono fun _ _ _ => trivial)
    obtain rfl : call = call' := Option.some.inj (calling.symm.trans calling')
    obtain rfl : id = list.length :=
      ReqSocket.owes.inj (Option.some.inj (owing.symm.trans owing'))
    cases moved with
    | wires at_op effect =>
      obtain ⟨id, owing'', own, -⟩ := effect
      obtain rfl : list.length = id :=
        ReqSocket.owes.inj (Option.some.inj (owing.symm.trans owing''))
      obtain ⟨earlier, h, parsed, o, later, request, result, rfl, sent, carried, answered, rfl⟩ :=
        past.replies own
      obtain rfl := parsed_of_ok carried answered accepted
      have same : request = Orchestrator.request call.tc args := by
        rw [latest] at sent
        simpa using sent.symm
      have parses : (Parsed.value request).Call ⟨call.tc.requestId, call.tc.name, .object args⟩ :=
        ⟨request, rfl, same ▸ fromJson_request call.tc args⟩
      refine ⟨earlier, _, later, _, o, _, rfl, rfl, parses, abort, ?_⟩
      rintro reason quiet id' ⟨parsed, o', c, op, handled, call', motion, passes, -⟩
      obtain ⟨_, to_m, -⟩ := run.split split
      have set : m.1.latches.aborted = true :=
        (Remembers.reached equipped to_m).latch
          (List.append_assoc earlier (_ :: later) _) ⟨_, o, _, rfl, parses, abort, reason⟩ quiet
      have emergency := Bridge.passes_aborted set passes
      simp only [motionTools, List.mem_cons, List.not_mem_nil, or_false] at motion
      rcases motion with name | name | name | name <;> rw [name] at emergency <;> cases emergency

/-- A spoken arm whose call times out, an abort that the bridge accepts, and then
the arm's request. -/
def lateArmLabels (flying : Bool) : List Label :=
  let confirmed : List (String × Json) := [("voice_confirmed", .boolean true)]
  let arm : ToolCall := { requestId := "1", name := "arm" }
  let abort : ToolCall := { requestId := "2", name := "abort" }
  let tried := executedStep arm (failure arm "timeout")
  let mission : OrchestratorMission := { goalText := "arm" }
  decisionLabels { text := "arm" } true { thought := "", toolCalls := [arm] } ++ clearLabels ++
  sendLabels arm confirmed true ++ timeoutLabels arm ++
  [.performs (.record tried true) (), .performs .stopIsSet false, .performs .bridgeOffline true,
    .performs .mission (mission.record tried true),
    .performs (.appendHistory (.mission "arm" 1 1 .bridgeOffline)) (), .finishes,
    .takes { text := "abort", isAbort := true }, .performs .clearBridgeOffline (),
    .performs .preemptClear (), .performs (.setArmAuthorized false) (),
    .performs (.publishStatus "aborted") (), .performs .newRequestId "2"] ++
  sendLabels abort [] false ++
  [.handles 1 (.value (request abort [])) { Outside.nominal with inAir := flying }] ++
  acceptedLabels abort ++
  [.handles 0 (.value (request arm confirmed)) .nominal]

def acknowledgesAbort (p : State × Label) : Bool :=
  match p.2 with
  | .wires .recv (.ok reply) =>
    p.1.session.link.socket = some (.owes 1) &&
      p.1.session.call.any fun call =>
        call.tc.name = "abort" && (ToolResult.ofReply call.tc reply).ok
  | _ => false

theorem acknowledgesAbort_sound {p : State × Label} (yes : acknowledgesAbort p = true) :
    AcknowledgesAbort p 1 := by
  obtain ⟨t, e⟩ := p
  unfold acknowledgesAbort at yes
  split at yes
  · rename_i reply received
    simp only [Bool.and_eq_true, decide_eq_true_eq, Option.any_eq_true] at yes
    obtain ⟨owing, call, calling, abort, accepted⟩ := yes
    exact ⟨call, reply, received, calling, abort, owing, accepted⟩
  · cases yes

/-- What the bridge finds of the vehicle where it handles a request. -/
def flies (p : State × Label) : Option Bool :=
  match p.2 with
  | .handles _ _ o => some o.inAir
  | .reports _ => some false
  | _ => none

theorem not_endsSession_of_flies {p : State × Label} (silent : flies p = none) :
    ¬ EndsSession cfg p := by
  rintro (reported | ⟨id, parsed, o, handled, -⟩)
  · simp [flies, reported] at silent
  · simp [flies, handled] at silent

/-- The last four steps of the run: the acknowledgement, the end of its call and
the late request. -/
def lateArm (late : State × Label → Bool) (path : Path) : Bool :=
  match path.reverse with
  | m :: _ :: _ :: a :: _ => acknowledgesAbort a && late m && (flies m).isSome
  | _ => false

theorem lateArm_sound {late : State × Label → Bool} {path : Path} (yes : lateArm late path = true) :
    ∃ before a mid m after, path = before ++ a :: mid ++ m :: after ∧ AcknowledgesAbort a 1 ∧
      late m = true ∧ ∃ b, flies m = some b := by
  unfold lateArm at yes
  split at yes
  · rename_i m last flag a rest reversed
    obtain ⟨yes, handled⟩ := Bool.and_eq_true_iff.mp yes
    obtain ⟨acknowledged, came⟩ := Bool.and_eq_true_iff.mp yes
    refine ⟨rest.reverse, a, [flag, last], m, [], ?_, acknowledgesAbort_sound acknowledged, came,
      Option.isSome_iff_exists.mp handled⟩
    have forward := congrArg List.reverse reversed
    simpa using forward
  · cases yes

def handlesFirst (p : State × Label) : Bool :=
  match p.2 with
  | .handles id _ _ => id == 0
  | _ => false

theorem moves_of_performs {p : State × Label} (arms : Performs cfg p (.action .arm))
    (first : handlesFirst p = true) : Moves cfg p 0 := by
  obtain ⟨id, parsed, o, handled, performed⟩ := arms
  obtain rfl : id = 0 := by simpa [handlesFirst, handled] using first
  obtain ⟨c, call, passes, tool⟩ := Bridge.handle_command rfl performed
  have arm : c.name = "arm" := by simpa [Bridge.Op.ofTool] using tool
  exact ⟨parsed, o, c, _, handled, call, by simp [arm, motionTools], passes, rfl, performed⟩

theorem lateArm_replays (flying : Bool) (late : State × Label → Bool)
    (found : (replay (step? plainSettings) {} (lateArmLabels flying)).any
      (fun ran => lateArm late ran.1 && ran.1.filterMap flies == [flying, false]) = true) :
    ∃ path s before a mid m after, Run (Next plainSettings) {} path s ∧
      path = before ++ a :: mid ++ m :: after ∧ AcknowledgesAbort a 1 ∧ late m = true ∧
      path.filterMap flies = [flying, false] ∧ ∃ b, flies m = some b := by
  obtain ⟨⟨path, s⟩, ran, came⟩ := (Option.any_eq_true _ _).mp found
  obtain ⟨came, flown⟩ := Bool.and_eq_true_iff.mp came
  obtain ⟨before, a, mid, m, after, split, acknowledged, seen, handled⟩ := lateArm_sound came
  exact ⟨path, s, before, a, mid, m, after, run_of_script ran, split, acknowledged, seen,
    eq_of_beq flown, handled⟩

/-- Where only the abort and the late request are handled, nothing happens between them. -/
theorem flown_between {earlier later mid after : Path} {h a m : State × Label} {flying b c : Bool}
    (flown : (earlier ++ h :: later ++ a :: mid ++ m :: after).filterMap flies = [flying, c])
    (first : flies h = some b) (last : ∃ b, flies m = some b) :
    b = flying ∧ ∀ q ∈ later ++ a :: mid, flies q = none := by
  obtain ⟨d, last⟩ := last
  have parts : earlier ++ h :: later ++ a :: mid ++ m :: after =
      earlier ++ h :: (later ++ a :: mid) ++ m :: after := by simp
  rw [parts, List.filterMap_append, List.filterMap_append, List.filterMap_cons_some first,
    List.filterMap_cons_some last] at flown
  have lengths := congrArg List.length flown
  simp only [List.length_append, List.length_cons, List.length_nil] at lengths
  have before : earlier.filterMap flies = [] := List.eq_nil_of_length_eq_zero (by omega)
  have between : (later ++ a :: mid).filterMap flies = [] := List.eq_nil_of_length_eq_zero (by omega)
  rw [before, between] at flown
  exact ⟨(List.cons.inj flown).1, List.filterMap_eq_nil_iff.mp between⟩

/-- The late arm finds the latch set. -/
theorem abort_stops_motion_flying : ∃ path s before a mid m after,
    Run (Next plainSettings) {} path s ∧ path = before ++ a :: mid ++ m :: after ∧
    AcknowledgesAbort a 1 ∧ handlesFirst m = true ∧ ∀ id, ¬ Moves plainSettings m id := by
  obtain ⟨path, s, before, a, mid, m, after, run, split, acknowledged, first, flown, last⟩ :=
    lateArm_replays true handlesFirst (by decide +kernel)
  obtain ⟨earlier, h, later, parsed, o, c, rfl, handled, -, -, stops⟩ :=
    abort_stops_motion ⟨rfl, rfl, rfl⟩ run split acknowledged
  rw [split] at flown
  have abort : flies h = some o.inAir := by
    simp [flies, handled]
  obtain ⟨inAir, quiet⟩ := flown_between flown abort last
  exact ⟨path, s, _, a, mid, m, after, run, split, acknowledged, first,
    stops (.inl inAir) fun q member => not_endsSession_of_flies (quiet q member)⟩

/-- An abort on the ground is acknowledged, and the arm from before it still arms. -/
theorem late_arm_gets_through :
    ¬ ∀ (cfg : Settings) (path : Path) (s : State), Run (Next cfg) {} path s →
      ∀ before a mid m after id id', path = before ++ a :: mid ++ m :: after →
        AcknowledgesAbort a id → id' < id → ¬ Moves cfg m id' := by
  intro claimed
  obtain ⟨path, s, before, a, mid, m, after, run, split, acknowledged, seen, -⟩ :=
    lateArm_replays false
      (fun m => performs plainSettings (.action .arm) m && handlesFirst m) (by decide +kernel)
  obtain ⟨arms, first⟩ := Bool.and_eq_true_iff.mp seen
  exact claimed plainSettings path s run before a mid m after 1 0 split acknowledged (by decide)
    (moves_of_performs (performs_sound arms) first)

end Lexaire.System
