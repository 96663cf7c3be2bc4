import Lexaire.System.StaleMotion

/-! What a call that returned ok = true stands for. The bridge has handled the request of
this very call, once, between its send and its return, and accepted it. -/
namespace Lexaire.System
open Atomic Transition Lexaire.Orchestrator
open Lexaire.Bridge (Outside Parsed handle)

def handledId? : State × Label → Option Nat
  | (_, .handles id _ _) => some id
  | _ => none

/-- A call begins or ends. -/
def Label.bounds : Label → Bool
  | .calls _ | .returns _ => true
  | _ => false

def Label.Sends (e : Label) (request : Json) : Prop := e = .wires (.send request) (.ok ())

/-- Where the replies and the requests of a state come from. -/
structure Ledger (cfg : Settings) (path : Path) (s : State) : Prop where
  answers : ∀ {id reply}, (id, reply) ∈ s.replies → ∃ t parsed o request result,
    (t, .handles id parsed o) ∈ path ∧ t.session.link.sent[id]? = some request ∧
      Carried request parsed ∧
      ((handle cfg.bridge.env cfg.bridge.ctx parsed).run o.answer t.latches).result = .ok result ∧
      reply = Bridge.reply parsed result
  handled : path.filterMap handledId? = s.handled.reverse
  once : s.handled.Nodup
  asked : ∀ {earlier latest}, s.session.link.sent = earlier ++ [latest] →
    ∃ first u second, path = first ++ (u, .wires (.send latest) (.ok ())) :: second ∧
      u.session.link.sent = earlier ∧ ∀ q ∈ second, ∀ request, ¬ q.2.Sends request
  asking : ∀ {call}, s.session.call = some call →
    ∃ first c second, path = first ++ (c, .calls call.tc) :: second ∧
      (∀ q ∈ second, q.2.bounds = false) ∧
      ∀ request, ⟨.send request, .ok ()⟩ ∈ call.trace → ∃ q ∈ second, q.2.Sends request

variable {cfg : Settings} {path : Path} {s s' : State} {e : Label}

/-- A request is added by its send alone. -/
theorem sent_grows (moved : Next cfg s e s') :
    (s'.session.link.sent = s.session.link.sent ∧ ∀ request, ¬ e.Sends request) ∨
      ∃ latest, e.Sends latest ∧ s'.session.link.sent = s.session.link.sent ++ [latest] := by
  cases moved with
  | performs at_op own effect => exact .inl ⟨linkPerforms_sent effect, fun _ sends => by cases sends⟩
  | calls at_op moved =>
    cases moved with
    | calls between => exact .inl ⟨rfl, fun _ sends => by cases sends⟩
  | @wires op r session moved =>
    cases moved with
    | wires calling effect =>
      by_cases sends : ∃ request, (Label.wires op r).Sends request
      · obtain ⟨request, same⟩ := sends
        cases same
        obtain ⟨-, rfl⟩ := effect
        exact .inr ⟨request, rfl, rfl⟩
      · rcases (Link.performs_keeps effect).2 with same | ⟨latest, same, -⟩
        · exact .inl ⟨same, not_exists.mp sends⟩
        · cases same
          exact absurd ⟨latest, rfl⟩ sends
  | returns at_op moved =>
    cases moved with
    | returns ended => exact .inl ⟨rfl, fun _ sends => by cases sends⟩
  | _ => exact .inl ⟨rfl, fun _ sends => by cases sends⟩

namespace Ledger

theorem initial : Ledger cfg [] {} :=
  ⟨by simp, rfl, .nil, by simp, by simp⟩

theorem asked_step (inv : Ledger cfg path s) (moved : Next cfg s e s') {earlier : List Json}
    {latest : Json} (grown : s'.session.link.sent = earlier ++ [latest]) :
    ∃ first u second, path ++ [(s, e)] = first ++ (u, .wires (.send latest) (.ok ())) :: second ∧
      u.session.link.sent = earlier ∧ ∀ q ∈ second, ∀ request, ¬ q.2.Sends request := by
  rcases sent_grows moved with ⟨same, silent⟩ | ⟨request, sends, more⟩
  · obtain ⟨first, u, second, rfl, before, quiet⟩ := inv.asked (same ▸ grown)
    refine ⟨first, u, second ++ [(s, e)], by simp, before, ?_⟩
    intro q member
    rcases List.mem_append.mp member with earlier | last
    · exact quiet q earlier
    · rw [List.mem_singleton.mp last]
      exact silent
  · obtain ⟨rfl, last⟩ := List.append_inj' (more.symm.trans grown) rfl
    obtain rfl := List.singleton_inj.mp last
    obtain rfl := sends
    exact ⟨path, s, [], rfl, rfl, by simp⟩

/-- A step within a call. -/
theorem asking_on (inv : Ledger cfg path s) (inside : e.bounds = false) {call call' : Calling}
    (calling : s.session.call = some call) (same : call'.tc = call.tc)
    (traced : ∀ request, ⟨.send request, .ok ()⟩ ∈ call'.trace →
      ⟨.send request, .ok ()⟩ ∈ call.trace ∨ e.Sends request) :
    ∃ first c second, path ++ [(s, e)] = first ++ (c, .calls call'.tc) :: second ∧
      (∀ q ∈ second, q.2.bounds = false) ∧
      ∀ request, ⟨.send request, .ok ()⟩ ∈ call'.trace → ∃ q ∈ second, q.2.Sends request := by
  obtain ⟨first, c, second, rfl, within, sends⟩ := inv.asking calling
  refine ⟨first, c, second ++ [(s, e)], by simp [same], ?_, ?_⟩
  · intro q member
    rcases List.mem_append.mp member with earlier | last
    · exact within q earlier
    · rw [List.mem_singleton.mp last]
      exact inside
  · intro request member
    rcases traced request member with before | now
    · obtain ⟨q, held, sent⟩ := sends request before
      exact ⟨q, List.mem_append_left _ held, sent⟩
    · exact ⟨(s, e), by simp, now⟩

theorem step (inv : Ledger cfg path s) (moved : Next cfg s e s') :
    Ledger cfg (path ++ [(s, e)]) s' := by
  have answers {id : Nat} {reply : Json} (known : (id, reply) ∈ s.replies) :
      ∃ t parsed o request result, (t, .handles id parsed o) ∈ path ++ [(s, e)] ∧
        t.session.link.sent[id]? = some request ∧ Carried request parsed ∧
        ((handle cfg.bridge.env cfg.bridge.ctx parsed).run o.answer t.latches).result = .ok result ∧
        reply = Bridge.reply parsed result := by
    obtain ⟨t, parsed, o, request, result, member, rest⟩ := inv.answers known
    exact ⟨t, parsed, o, request, result, List.mem_append_left _ member, rest⟩
  have unhandled (none : handledId? (s, e) = none) :
      (path ++ [(s, e)]).filterMap handledId? = s.handled.reverse := by
    simp [List.filterMap_append, none, inv.handled]
  have aside {call : Calling} (inside : e.bounds = false) (calling : s.session.call = some call) :=
    inv.asking_on inside calling rfl (fun _ => .inl)
  have asked := fun {earlier latest} => @inv.asked_step _ _ _ _ _ moved earlier latest
  cases moved with
  | takes idle => exact ⟨answers, unhandled rfl, inv.once, asked, aside rfl⟩
  | performs at_op own effect => exact ⟨answers, unhandled rfl, inv.once, asked, aside rfl⟩
  | calls at_op moved =>
    cases moved with
    | calls between =>
      refine ⟨answers, unhandled rfl, inv.once, asked, ?_⟩
      rintro call ⟨⟩
      exact ⟨path, s, [], rfl, by simp, by simp⟩
  | @wires op r session moved =>
    cases moved with
    | wires calling effect =>
      refine ⟨answers, unhandled rfl, inv.once, asked, ?_⟩
      rintro call ⟨⟩
      refine inv.asking_on rfl calling rfl fun request member => ?_
      rcases List.mem_append.mp member with before | now
      · exact .inl before
      · cases List.mem_singleton.mp now
        exact .inr rfl
  | returns at_op moved =>
    cases moved with
    | returns ended => exact ⟨answers, unhandled rfl, inv.once, asked, by simp⟩
  | finishes ended => exact ⟨answers, unhandled rfl, inv.once, asked, aside rfl⟩
  | @handles id request parsed o result sent fresh carried answered =>
    refine ⟨?_, ?_, List.nodup_cons.mpr ⟨fresh, inv.once⟩, asked, aside rfl⟩
    · intro id' reply known
      rcases List.mem_cons.mp known with same | member
      · obtain ⟨rfl, rfl⟩ := Prod.mk.inj same
        exact ⟨s, parsed, o, request, result, by simp, sent, carried, answered, rfl⟩
      · exact answers member
    · simp [List.filterMap_append, handledId?, inv.handled]
  | reports | polls | watches => exact ⟨answers, unhandled rfl, inv.once, asked, aside rfl⟩

theorem reached (run : Run (Next cfg) {} path s) : Ledger cfg path s :=
  run.invariant_history (fun _ _ => True) (fun inv _ moved => inv.step moved) .initial
    fun _ _ _ _ => trivial

end Ledger

/-- The replies are only ever added to. -/
theorem replied_step (moved : Next cfg s e s') {id : Nat} {reply : Json} (known : s.replied id reply) :
    s'.replied id reply := by
  cases moved with
  | handles => exact List.mem_cons_of_mem _ known
  | _ => exact known

/-- The session against all the replies that there are at the end. -/
theorem session_disciplined (run : Run (Next cfg) {} path s) {replied : Nat → Json → Prop}
    (all : ∀ id reply, s.replied id reply → replied id reply) : s.session.Disciplined replied := by
  induction run with
  | nil => exact .initial
  | @snoc s s' path e earlier moved ih =>
    have sooner : ∀ id reply, s.replied id reply → replied id reply :=
      fun id reply known => all id reply (replied_step moved known)
    have inv := ih sooner
    have coherent := Coherent.reached earlier
    cases moved with
    | performs at_op own effect =>
      refine linkPerforms_disciplined inv (coherent.between at_op fun tc next same => ?_) effect
      obtain ⟨rfl, -⟩ := Program.step.inj same
      cases own
    | calls at_op moved => exact inv.step (moved.mono sooner)
    | wires moved => exact inv.step (moved.mono sooner)
    | returns at_op moved => exact inv.step (moved.mono sooner)
    | _ => exact inv

/-- A request keeps its number from the step on that finds it sent. -/
theorem sent_later {h : State} {f : Label} (run : Run (Next cfg) s path s') (member : (h, f) ∈ path)
    {id : Nat} {request : Json} (known : h.session.link.sent[id]? = some request) :
    s'.session.link.sent[id]? = some request := by
  induction run with
  | nil => cases member
  | snoc _ moved ih =>
    rcases List.mem_append.mp member with earlier | last
    · exact sent_step moved (ih earlier)
    · obtain ⟨rfl, rfl⟩ := Prod.mk.inj (List.mem_singleton.mp last)
      exact sent_step moved known

/-- Two places in a list: one comes before the other, or they are the same. -/
theorem places_ordered {α : Type} {before after before' after' : List α} {a b : α}
    (same : before ++ a :: after = before' ++ b :: after') :
    (∃ mid, before = before' ++ b :: mid ∧ after' = mid ++ a :: after) ∨
      (∃ mid, before' = before ++ a :: mid ∧ after = mid ++ b :: after') ∨ a = b := by
  rcases List.append_eq_append_iff.mp same with ⟨mid, rfl, rest⟩ | ⟨mid, rfl, rest⟩
  · cases mid with
    | nil => exact .inr (.inr (List.cons.inj rest).1)
    | cons c mid =>
      obtain ⟨rfl, rfl⟩ := List.cons.inj rest
      exact .inr (.inl ⟨mid, rfl, rfl⟩)
  · cases mid with
    | nil => exact .inr (.inr (List.cons.inj rest).1.symm)
    | cons c mid =>
      obtain ⟨rfl, rfl⟩ := List.cons.inj rest
      exact .inl ⟨mid, rfl, rfl⟩

/-- The last request was sent by the call that is still open, if that has sent one. -/
theorem Ledger.own_send (inv : Ledger cfg path s) {call : Calling} {earlier : List Json}
    {latest : Json} (calling : s.session.call = some call)
    (sent : s.session.link.sent = earlier ++ [latest])
    (own : ⟨.send latest, .ok ()⟩ ∈ call.trace) :
    ∃ first u second, path = first ++ (u, .wires (.send latest) (.ok ())) :: second ∧
      u.session.link.sent = earlier ∧ ∀ q ∈ second, q.2.bounds = false := by
  obtain ⟨first, u, second, split, before, quiet⟩ := inv.asked sent
  obtain ⟨first', c, second', split', within, sends⟩ := inv.asking calling
  obtain ⟨q, member, sent⟩ := sends latest own
  refine ⟨first, u, second, split, before, fun p held => ?_⟩
  rcases places_ordered (split.symm.trans split') with ⟨mid, -, rfl⟩ | ⟨mid, -, rfl⟩ | same
  · exact within p (by simp [held])
  · exact absurd sent (quiet q (by simp [member]) latest)
  · cases congrArg Prod.snd same

/-- A call that returns ok = true was made for a command, and the bridge has handled the
request that this call sent: after the send, before the return, at no other time, and with
the answer that the call returns. -/
theorem ok_call_handled_once (run : Run (Next cfg) {} path s) {before after : Path} {t : State}
    {result : ToolResult} (split : path = before ++ (t, .returns result) :: after)
    (accepted : result.ok = true) :
    ∃ call cmd, ∃ next : ToolResult → Orchestrator.Code Unit, ∃ args first u second h o third built,
      t.session.call = some call ∧ t.task = some ⟨cmd, .step (.dispatchToolCall call.tc) next⟩ ∧
      before = first ++ (u, .wires (.send (request call.tc args)) (.ok ())) :: second ++
        (h, .handles u.session.link.sent.length (.value (request call.tc args)) o) :: third ∧
      (∀ q ∈ second ++ third, q.2.bounds = false) ∧
      (path.filterMap handledId?).count u.session.link.sent.length = 1 ∧
      ((handle cfg.bridge.env cfg.bridge.ctx (.value (request call.tc args))).run o.answer
        h.latches).result = .ok built ∧
      built.ok = true ∧ result = ToolResult.ofReply call.tc built.toJson := by
  obtain ⟨_, to_t, moved⟩ := run.split split
  have coherent := Coherent.reached to_t
  have ledger := Ledger.reached to_t
  have whole := Ledger.reached run
  cases moved with
  | returns at_op moved =>
    obtain ⟨call, calling, left⟩ :=
      (session_disciplined to_t fun _ _ known => known).exit moved
    obtain ⟨cmd, next, task⟩ := coherent.asking calling
    cases left with
    | failed discarded flag built =>
      subst built
      cases accepted
    | @replied earlier args members latest sent received own returned idle online =>
      obtain ⟨h, parsed, o, req, built, handled, known, carried, answered, same⟩ := ledger.answers own
      rw [same] at returned
      obtain rfl := parsed_of_ok carried answered (returned ▸ accepted)
      obtain rfl : request call.tc args = req := by
        have last := sent_later to_t handled known
        rw [latest] at last
        simpa using last
      obtain ⟨first, u, rest, rfl, before_u, inside⟩ := ledger.own_send calling latest sent
      subst before_u
      -- before the send there is no request of this number
      have late : (h, .handles u.session.link.sent.length (.value (request call.tc args)) o) ∈ rest := by
        rcases List.mem_append.mp handled with early | here
        · obtain ⟨_, to_u, -⟩ := to_t.split rfl
          have found := sent_later to_u early known
          simp at found
        · rcases List.mem_cons.mp here with same | late
          · cases congrArg Prod.snd same
          · exact late
      obtain ⟨second, third, rfl⟩ := List.append_of_mem late
      refine ⟨call, cmd, next, args, first, u, second, h, o, third, built, calling, task, by simp,
        ?_, ?_, answered, ?_, returned⟩
      · intro q member
        apply inside
        rcases List.mem_append.mp member with earlier | later
        · simp [earlier]
        · simp [later]
      · rw [whole.handled, List.count_reverse]
        refine List.count_eq_one_of_mem whole.once ?_
        rw [← List.mem_reverse, ← whole.handled, split]
        exact List.mem_filterMap.mpr ⟨_, List.mem_append_left _ handled, rfl⟩
      · rw [returned] at accepted
        simpa [ToolResult.ofReply, Bridge.reply, truthy] using accepted

/-- A hold that the vehicle takes. -/
def heldLabels : List Label :=
  decisionLabels { text := "hold" } false { thought := "", toolCalls := [hold] } ++ clearLabels ++
    sendLabels hold [] false ++ [.handles 0 (.value (request hold [])) .nominal] ++ acceptedLabels hold

def returnsOk (p : State × Label) : Bool :=
  match p.2 with
  | .returns result => result.ok
  | _ => false

theorem ok_call_handled_once_hold : ∃ path s before t result after,
    Run (Next plainSettings) {} path s ∧ path = before ++ (t, .returns result) :: after ∧
    result.ok = true ∧ ∃ (u h : State) (tc : ToolCall) (args : List (String × Json)),
      (u, .wires (.send (request tc args)) (.ok ())) ∈ before ∧
      (∃ o, (h, .handles u.session.link.sent.length (.value (request tc args)) o) ∈ before) ∧
      (path.filterMap handledId?).count u.session.link.sent.length = 1 := by
  have checked : (replay (step? plainSettings) {} heldLabels).any
      (fun ran => ran.1.any returnsOk) = true := by
    decide +kernel
  obtain ⟨⟨path, s⟩, ran, held⟩ := (Option.any_eq_true _ _).mp checked
  obtain ⟨⟨t, e⟩, member, accepted⟩ := List.any_eq_true.mp held
  obtain ⟨before, after, split⟩ := List.append_of_mem member
  unfold returnsOk at accepted
  split at accepted
  · rename_i result returned
    obtain rfl := returned
    have run := run_of_script ran
    obtain ⟨call, cmd, next, args, first, u, second, h, o, third, built, -, -, same, -, once, -⟩ :=
      ok_call_handled_once run split accepted
    exact ⟨path, s, before, t, result, after, run, split, accepted, u, h, call.tc, args,
      by simp [same], ⟨o, by simp [same]⟩, once⟩
  · cases accepted

end Lexaire.System
