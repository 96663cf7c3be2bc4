import Lexaire.System.Machine

/-! Where a request comes from. In every run a request was sent by one call, for
which the arguments were fixed, under one command, whose text alone decided
whether an arm is confirmed. -/
namespace Lexaire.System
open Atomic Transition Lexaire.Orchestrator

/-- What a command does to the flag that `arm` sends along. -/
def authorizes (op : Orchestrator.Op) (authorized : Bool) (_ : op.Answer) (after : Bool) : Prop :=
  after = match op with
    | .setArmAuthorized value => value
    | _ => authorized

/-- No call is made before the flag is this command's. -/
abbrev Authorizes (spoken : Bool) (p : Orchestrator.Code Unit) (authorized : Bool) : Prop :=
  p.Holds (.alone authorizes) (fun op b => isCall op = true → b = spoken) (fun _ _ => True) authorized

theorem authorizes_of_underway {p : Orchestrator.Code Unit} (underway : Underway p) (spoken : Bool) :
    Authorizes spoken p spoken := by
  refine .alone_all (P := (· = spoken)) underway ?_ ?_ ?_ rfl
  · rintro op b r b' fits rfl rfl
    cases op with
    | setArmAuthorized value => cases fits
    | _ => rfl
  · rintro op b _ rfl _
    rfl
  · exact fun _ _ _ => trivial

theorem onCommand_authorizes (settings : Orchestrator.Settings) (cmd : VoiceCommand) (b : Bool) :
    Authorizes (settings.alphabet.search "arm" cmd.text) (onCommand settings cmd) b := by
  refine .alone_step (fun call => by cases call) ?_
  rintro r _ rfl
  refine .alone_step (fun call => by cases call) ?_
  rintro r _ rfl
  refine .alone_step (fun call => by cases call) ?_
  rintro r _ rfl
  refine authorizes_of_underway ?_ _
  change Underway (if _ then _ else _)
  split
  · exact abort_underway cmd.text
  · exact mission_underway settings.maxSteps cmd.text

theorem linkPerforms_authorizes {op : Orchestrator.Op} {r : op.Answer} {l l' : Link}
    (effect : linkPerforms op l r l') : authorizes op l.authorized r l'.authorized := by
  cases op with
  | bridgeOffline =>
    obtain ⟨-, rfl⟩ := effect
    rfl
  | _ =>
    obtain rfl := effect
    rfl

theorem linkPerforms_sent {op : Orchestrator.Op} {r : op.Answer} {l l' : Link}
    (effect : linkPerforms op l r l') : l'.sent = l.sent := by
  cases op with
  | bridgeOffline =>
    obtain ⟨-, rfl⟩ := effect
    rfl
  | _ =>
    obtain rfl := effect
    rfl

/-- Between calls an operation of the main thread is a step of its session, if it is any. -/
theorem linkPerforms_disciplined {replied : Nat → Json → Prop} {op : Orchestrator.Op} {r : op.Answer}
    {s : Session} {link : Link} (inv : s.Disciplined replied) (between : s.call = none)
    (effect : linkPerforms op s.link r link) : Session.Disciplined replied { s with link } := by
  cases op with
  | clearBridgeOffline =>
    obtain rfl := effect
    exact inv.step (.clearsOffline between)
  | setArmAuthorized value =>
    obtain rfl := effect
    exact inv.step (.authorizes between)
  | bridgeOffline =>
    obtain ⟨-, rfl⟩ := effect
    exact inv
  | _ =>
    obtain rfl := effect
    exact inv

/-- A request that says what the command's text lets it say. -/
def Spoken (settings : Orchestrator.Settings) (cmd : VoiceCommand) (tc : ToolCall)
    (request : Json) : Prop :=
  ∃ args, request = Orchestrator.request tc args ∧ (tc.name = "arm" →
    args.lookup "voice_confirmed" = some (.boolean (settings.alphabet.search "arm" cmd.text)))

structure Coherent (cfg : Settings) (path : Path) (s : State) : Prop where
  session : s.session.Disciplined fun _ _ => True
  asking : ∀ {call}, s.session.call = some call →
    ∃ cmd next, s.task = some ⟨cmd, .step (.dispatchToolCall call.tc) next⟩
  authority : ∀ {cmd rest}, s.task = some ⟨cmd, rest⟩ →
    Authorizes (cfg.orchestrator.alphabet.search "arm" cmd.text) rest s.session.link.authorized
  sent : ∀ {id request}, s.session.link.sent[id]? = some request →
    ∃ cmd tc, Sent path id cmd tc request ∧ Spoken cfg.orchestrator cmd tc request

namespace Coherent
variable {cfg : Settings} {path : Path} {s s' : State} {e : Label}

theorem initial : Coherent cfg [] {} :=
  ⟨.initial, by simp, by simp, by simp⟩

/-- What a send that is about to go through carries. -/
theorem sending (inv : Coherent cfg path s) {request : Json} {r : Except WireException Unit}
    {session : Session} (moved : Session.Next s.replied s.session (.wires (.send request) r) session) :
    ∃ cmd tc next, s.task = some ⟨cmd, .step (.dispatchToolCall tc) next⟩ ∧
      Spoken cfg.orchestrator cmd tc request := by
  obtain ⟨call, calling, idle, args, rfl, authorized⟩ :=
    inv.session.proper (moved.mono fun _ _ _ => trivial)
  obtain ⟨cmd, next, asked⟩ := inv.asking calling
  refine ⟨cmd, call.tc, next, asked, args, rfl, fun arm => ?_⟩
  rw [authorized arm, (inv.authority asked).now_good rfl]

/-- A request that was on its socket before the step. -/
theorem earlier (inv : Coherent cfg path s) (e : Label) {id : Nat} {request : Json}
    (known : s.session.link.sent[id]? = some request) :
    ∃ cmd tc, Sent (path ++ [(s, e)]) id cmd tc request ∧ Spoken cfg.orchestrator cmd tc request := by
  obtain ⟨cmd, tc, sent, spoken⟩ := inv.sent known
  exact ⟨cmd, tc, sent.mono _, spoken⟩

/-- While a call is open the command waits for it. -/
theorem between (inv : Coherent cfg path s) {task : Task} (at_task : s.task = some task)
    (own : ∀ tc next, task.rest ≠ .step (.dispatchToolCall tc) next) : s.session.call = none := by
  cases calling : s.session.call with
  | none => rfl
  | some call =>
    obtain ⟨cmd, next, asked⟩ := inv.asking calling
    rw [at_task] at asked
    exact absurd (congrArg Task.rest (Option.some.inj asked)) (own _ _)

/-- A request on the socket after an operation of the call: an earlier one, or the one sent. -/
theorem wired (inv : Coherent cfg path s) {op : WireOp} {r : op.Answer} {session : Session}
    (moved : Session.Next s.replied s.session (.wires op r) session)
    {id : Nat} {request : Json} (known : session.link.sent[id]? = some request) :
    ∃ cmd tc, Sent (path ++ [(s, .wires op r)]) id cmd tc request ∧
      Spoken cfg.orchestrator cmd tc request := by
  cases moved with
  | wires calling effect =>
    rcases (Link.performs_keeps effect).2 with same | ⟨latest, same, grown⟩
    · rw [same] at known
      exact inv.earlier _ known
    · cases same
      obtain ⟨cmd, tc, next, asked, spoken⟩ := inv.sending (.wires calling effect)
      rw [grown, List.getElem?_append] at known
      split at known
      · exact inv.earlier _ known
      · rename_i beyond
        obtain ⟨place, rfl⟩ := List.getElem?_eq_some_iff.mp known
        have last : id = s.session.link.sent.length := by
          simp only [List.length_singleton] at place
          omega
        subst id
        simp only [Nat.sub_self, List.getElem_cons_zero]
        exact ⟨cmd, tc, ⟨s, next, by simp, asked, rfl⟩, spoken⟩

theorem step (inv : Coherent cfg path s) (moved : Next cfg s e s') :
    Coherent cfg (path ++ [(s, e)]) s' := by
  cases moved with
  | @takes cmd idle =>
    refine ⟨inv.session, ?_, ?_, inv.earlier _⟩
    · intro call calling
      obtain ⟨cmd, next, asked⟩ := inv.asking calling
      rw [idle] at asked
      cases asked
    · rintro cmd rest taken
      obtain ⟨rfl, rfl⟩ := Task.mk.inj (Option.some.inj taken)
      exact onCommand_authorizes cfg.orchestrator cmd _
  | performs at_op own effect =>
    have between := inv.between at_op fun tc next same => by
      obtain ⟨rfl, -⟩ := Program.step.inj same
      cases own
    refine ⟨linkPerforms_disciplined inv.session between effect, ?_, ?_, ?_⟩
    · intro call calling
      rw [between] at calling
      cases calling
    · rintro cmd rest taken
      obtain ⟨rfl, rfl⟩ := Task.mk.inj (Option.some.inj taken)
      exact (inv.authority at_op).performed (linkPerforms_authorizes effect)
    · intro id request known
      rw [linkPerforms_sent effect] at known
      exact inv.earlier _ known
  | calls at_op moved =>
    have session := inv.session.step (moved.mono fun _ _ _ => trivial)
    cases moved with
    | calls between =>
      refine ⟨session, ?_, inv.authority, inv.earlier _⟩
      rintro call calling
      obtain rfl := Option.some.inj calling
      exact ⟨_, _, at_op⟩
  | wires moved =>
    have disciplined := inv.session.step (moved.mono fun _ _ _ => trivial)
    have sent := @inv.wired _ _ _ _ _ _ moved
    cases moved with
    | wires calling effect =>
      refine ⟨disciplined, ?_, ?_, sent⟩
      · rintro call same
        obtain rfl := Option.some.inj same
        obtain ⟨cmd, next, asked⟩ := inv.asking calling
        exact ⟨cmd, next, asked⟩
      · intro cmd rest taken
        rw [(Link.performs_keeps effect).1]
        exact inv.authority taken
  | returns at_op moved =>
    have session := inv.session.step (moved.mono fun _ _ _ => trivial)
    cases moved with
    | returns ended =>
      refine ⟨session, by simp, ?_, inv.earlier _⟩
      rintro cmd rest taken
      obtain ⟨rfl, rfl⟩ := Task.mk.inj (Option.some.inj taken)
      exact (inv.authority at_op).performed rfl
  | finishes ended =>
    refine ⟨inv.session, ?_, by simp, inv.earlier _⟩
    intro call calling
    rw [inv.between ended (by simp)] at calling
    cases calling
  | handles sent fresh carried answered => exact ⟨inv.session, inv.asking, inv.authority, inv.earlier _⟩
  | reports | polls | watches => exact ⟨inv.session, inv.asking, inv.authority, inv.earlier _⟩

/-- In every state of every run. -/
theorem reached (run : Run (Next cfg) {} path s) : Coherent cfg path s :=
  run.invariant_history (fun _ _ => True) (fun inv _ moved => inv.step moved) .initial
    fun _ _ _ _ => trivial

end Coherent
end Lexaire.System
