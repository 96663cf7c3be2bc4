import Lexaire.Core.Alone
import Lexaire.Orchestrator.AbortPriority

/-! The pool that runs the VLM calls. A mission submits a call and waits for it, or
abandons it at a signal. Nothing cancels an abandoned call, and nothing counts those
that have not returned. -/
namespace Lexaire.Orchestrator
open Atomic Transition Op

/-- `_vlm_executor`'s `max_workers`. -/
def maxWorkers : Nat := 2

/-- Calls are numbered as they are submitted; the workers take them in that order. -/
structure Pool where
  submitted : Nat := 0
  unfinished : List Nat := []
  awaited : Option Nat := none
  abandoned : List Nat := []

namespace Pool

/-- The calls that a worker has taken. -/
def running (p : Pool) : List Nat := p.unfinished.take maxWorkers

def submit (p : Pool) : Pool where
  submitted := p.submitted + 1
  unfinished := p.unfinished ++ [p.submitted]
  awaited := some p.submitted
  abandoned := p.abandoned

/-- A future that nobody reads any more. -/
def abandon (p : Pool) : Pool :=
  { p with awaited := none, abandoned := p.abandoned ++ p.awaited.toList }

/-- `fut.done()`. -/
def Done (p : Pool) : Prop := ∀ call ∈ p.awaited, call ∉ p.unfinished

/-- What an operation of the main thread does to the pool: a signal seen while a call
is awaited abandons it. -/
def after : (op : Op) → op.Answer → Pool → Pool
  | .vlmSubmit _, _, p => p.submit
  | .vlmResult, _, p => { p with awaited := none }
  | .preemptIsSet, set, p | .stopIsSet, set, p => if set then p.abandon else p
  | _, _, p => p

/-- The call submitted next finds a worker that is free, and is taken at once. -/
def Ready (p : Pool) : Prop :=
  p.unfinished.length < maxWorkers ∧ p.submitted ∈ p.submit.running

/-- The abandoned calls that have not returned. -/
def stale (p : Pool) : List Nat := p.unfinished.filter (p.abandoned.contains ·)

end Pool

/-- The process with the workers beside it. -/
structure Staffed where
  process : Process := {}
  pool : Pool := {}

inductive StaffedLabel where
  | acts (e : ProcessLabel)
  | ends (call : Nat)

/-- The wait goes on until the call is done or a signal is seen, and `result()` until
the call is done. -/
def Staffed.Permits (s : Staffed) : ProcessLabel → Prop
  | .performs .vlmWait _ => s.pool.Done ∨ s.process.stop = true ∨ s.process.preempt = true
  | .performs .vlmResult _ => s.pool.Done
  | _ => True

def ProcessLabel.affects : ProcessLabel → Pool → Pool
  | .performs op r, p => p.after op r
  | _, p => p

inductive Staffed.Next (settings : Settings) (py : Interpreter) :
    Staffed → StaffedLabel → Staffed → Prop where
  | acts {s : Staffed} {e : ProcessLabel} {t : Process} (permitted : s.Permits e)
      (moved : Process.Next settings py s.process e t) :
      Next settings py s (.acts e) ⟨t, e.affects s.pool⟩
  | ends {s : Staffed} {call : Nat} (running : call ∈ s.pool.running) :
      Next settings py s (.ends call)
        { s with pool := { s.pool with unfinished := s.pool.unfinished.erase call } }

/-- `_vlm_executor.submit(self.vlm.decide, ctx)`. -/
def StaffedLabel.Submits (e : StaffedLabel) : Prop :=
  ∃ ctx, e = .acts (.performs (.vlmSubmit ctx) ())

/-- A preemption that abandons a call which has not returned finds none of the calls
abandoned before it unfinished. -/
def Staffed.Relieved (p : Staffed × StaffedLabel) : Prop :=
  p.2 = .acts (.performs .preemptIsSet true) → p.1.process.stop = false → ¬ p.1.pool.Done →
    p.1.pool.stale = []

/-! ## One mission -/

/-- Where the code of a command is with its VLM call: `left` when one was abandoned. -/
inductive Pace where
  | deciding | awaiting | left
deriving DecidableEq

def Pace.after : (op : Op) → op.Answer → Pace → Pace
  | .vlmSubmit _, _, _ => .awaiting
  | .vlmResult, _, _ => .deciding
  | .preemptIsSet, set, pace | .stopIsSet, set, pace =>
    if set = true ∧ pace = .awaiting then .left else pace
  | _, _, pace => pace

def Pace.performs (op : Op) (pace : Pace) (r : op.Answer) (pace' : Pace) : Prop :=
  pace' = pace.after op r

/-- A call is submitted between decisions and read while it is awaited. -/
def Pace.Allows : Op → Pace → Prop
  | .vlmSubmit _, pace => pace = .deciding
  | .vlmResult, pace => pace = .awaiting
  | _, _ => True

abbrev Paced {α : Type} (post : α → Pace → Prop) (p : Code α) (pace : Pace) : Prop :=
  Program.Leads Pace.performs Pace.Allows post p pace

/-- The operations that do not concern the VLM. -/
def Op.apart : Op → Bool
  | .vlmSubmit _ | .vlmResult => false
  | _ => true

theorem Pace.after_apart {op : Op} {pace : Pace} (fits : op.apart = true)
    (idle : pace ≠ .awaiting) (r : op.Answer) : pace.after op r = pace := by
  cases op with
  | preemptIsSet | stopIsSet => exact if_neg fun seen => idle seen.2
  | vlmSubmit | vlmResult => cases fits
  | _ => rfl

theorem Pace.allows_apart {op : Op} {pace : Pace} (fits : op.apart = true) : Pace.Allows op pace := by
  cases op with
  | vlmSubmit | vlmResult => cases fits
  | _ => trivial

theorem paced_apart {α : Type} {post : α → Pace → Prop} {p : Code α} {pace : Pace}
    (all : p.All (·.apart = true)) (idle : pace ≠ .awaiting) (ended : ∀ a, post a pace) :
    Paced post p pace := by
  refine Program.Holds.alone_all (P := (· = pace)) all ?_ (fun _ _ fits _ => Pace.allows_apart fits)
    ?_ rfl
  · rintro op _ r _ fits rfl rfl
    exact Pace.after_apart fits idle r
  · rintro _ _ rfl a _
    exact ended a

theorem paced_past {α β : Type} {post : α → Pace → Prop} {p : Code β} {f : β → Code α}
    {pace : Pace} (all : p.All (·.apart = true)) (idle : pace ≠ .awaiting)
    (rest : ∀ b, Paced post (f b) pace) : Paced post (p >>= f) pace := by
  have first : Paced (fun _ after => after = pace) p pace := paced_apart all idle fun _ => rfl
  refine .bind first ?_
  rintro b _ rfl
  exact rest b

theorem paced_step {α : Type} {post : α → Pace → Prop} {op : Op} {next : op.Answer → Code α}
    {pace : Pace} (fits : op.apart = true) (idle : pace ≠ .awaiting)
    (rest : ∀ r, Paced post (next r) pace) : Paced post (.step op next) pace := by
  refine .alone_step (Pace.allows_apart fits) ?_
  rintro r _ rfl
  rw [Pace.after_apart fits idle]
  exact rest r

theorem dispatchBatch_apart (batch : List ToolCall) :
    (dispatchBatch batch).All (·.apart = true) :=
  dispatchBatch_all (by rfl) (by rfl) (fun _ => by rfl) (fun _ _ => by rfl) (by rfl) batch

theorem overtaken_apart : overtaken.All (·.apart = true) := overtaken_all (by rfl) (by rfl)

theorem abort_apart (text : String) : (abort text).All (·.apart = true) :=
  abort_all (fun _ => by rfl) (by rfl) (fun _ => by rfl) (by rfl) text fun _ => by rfl

theorem decisionLoop_paced (text : String) (left decisionCount : Nat) :
    Paced (fun _ pace => pace ≠ .awaiting) (decisionLoop text left decisionCount) .deciding := by
  induction left generalizing decisionCount with
  | zero => exact .done (by simp)
  | succ left ih =>
    apply paced_step rfl (by simp)
    intro stopped
    cases stopped with
    | true => exact .done (by simp)
    | false =>
      apply paced_past (p := overtaken) overtaken_apart (by simp)
      intro cut
      cases cut with
      | true => exact .done (by simp)
      | false =>
        refine paced_step rfl (by simp) fun mission => paced_step rfl (by simp) fun _ => ?_
        refine .alone_step rfl ?_
        rintro _ _ rfl
        refine .alone_step trivial ?_
        rintro _ _ rfl
        refine .alone_step trivial ?_
        rintro preempted _ rfl
        cases preempted with
        | true => exact Program.Leads.done (by simp [Pace.after])
        | false =>
          refine .alone_step trivial ?_
          rintro stopped _ rfl
          cases stopped with
          | true => exact Program.Leads.done (by simp [Pace.after])
          | false =>
            refine .alone_step rfl ?_
            rintro result _ rfl
            cases result with
            | error what => exact Program.Leads.done (by simp [Pace.after])
            | ok decision =>
              change Paced _ (if decision.toolCalls = [] then _ else _) _
              split
              · split <;> exact Program.Leads.done (by simp [Pace.after])
              · apply paced_step rfl (by simp [Pace.after])
                intro _
                apply paced_past (p := dispatchBatch decision.toolCalls) (dispatchBatch_apart _) (by simp [Pace.after])
                intro ended
                cases ended with
                | failed | through => exact ih (decisionCount + 1)
                | _ => exact Program.Leads.done (by simp [Pace.after])

theorem onCommand_paced (settings : Settings) (cmd : VoiceCommand) :
    Paced (fun _ pace => pace ≠ .awaiting) (onCommand settings cmd) .deciding := by
  refine paced_step rfl (by simp) fun _ => paced_step rfl (by simp) fun _ => ?_
  apply paced_step rfl (by simp)
  intro _
  split
  · exact paced_apart (abort_apart cmd.text) (by simp) (by simp)
  · apply paced_step rfl (by simp)
    intro _
    refine .bind (p := decisionLoop cmd.text settings.maxSteps.toNat 0) (decisionLoop_paced _ _ _) ?_
    intro ended pace idle
    apply paced_past (endReason_all (by rfl) (by rfl) _ ended) idle
    intro reason
    refine paced_step rfl idle fun mission => paced_step rfl idle fun _ => ?_
    split
    · exact paced_step rfl idle fun _ => .done idle
    · split
      · exact .done idle
      · exact paced_step rfl idle fun _ => .done idle

/-! ## Runs -/

variable {s s' : Staffed} {e : StaffedLabel} {path : List (Staffed × StaffedLabel)}
  {settings : Settings} {py : Interpreter}

theorem Pool.mem_stale {p : Pool} {call : Nat} :
    call ∈ p.stale ↔ call ∈ p.unfinished ∧ call ∈ p.abandoned := by
  simp [stale]

/-- One stale call at most. -/
def Pool.Light (p : Pool) : Prop := ∀ a ∈ p.stale, ∀ b ∈ p.stale, a = b

/-- Every unfinished call is awaited or was abandoned, and none is awaited between decisions. -/
structure Pool.Orderly (p : Pool) (pace : Pace) : Prop where
  numbered : ∀ call ∈ p.unfinished, call < p.submitted
  dropped : ∀ call ∈ p.abandoned, call < p.submitted
  distinct : p.unfinished.Nodup
  idle : pace ≠ .awaiting → p.awaited = none
  waited : ∀ call ∈ p.awaited, call < p.submitted
  owned : ∀ call ∈ p.unfinished, call ∈ p.abandoned ∨ call ∈ p.awaited

theorem Pool.Orderly.all_stale {p : Pool} {pace : Pace} (orderly : p.Orderly pace)
    (idle : pace ≠ .awaiting) : p.stale = p.unfinished := by
  apply List.filter_eq_self.mpr
  intro call member
  rcases orderly.owned call member with dropped | awaited
  · simpa using dropped
  · rw [orderly.idle idle] at awaited
    cases awaited

theorem Pool.Orderly.submit {p : Pool} (orderly : p.Orderly .deciding) :
    p.submit.Orderly .awaiting := by
  have fresh : p.submitted ∉ p.unfinished := fun member =>
    Nat.lt_irrefl _ (orderly.numbered _ member)
  constructor
  case numbered =>
    intro call member
    rcases List.mem_append.mp member with before | last
    · exact Nat.lt_succ_of_lt (orderly.numbered call before)
    · obtain rfl := List.mem_singleton.mp last
      exact Nat.lt_succ_self _
  case dropped => exact fun call member => Nat.lt_succ_of_lt (orderly.dropped call member)
  case distinct =>
    refine List.nodup_append.mpr ⟨orderly.distinct, by simp, ?_⟩
    rintro call member _ last rfl
    obtain rfl := List.mem_singleton.mp last
    exact fresh member
  case idle => exact fun idle => absurd rfl idle
  case waited =>
    intro call member
    obtain rfl := Option.some.inj member
    exact Nat.lt_succ_self _
  case owned =>
    intro call member
    rcases List.mem_append.mp member with before | last
    · rcases orderly.owned call before with dropped | awaited
      · exact .inl dropped
      · rw [orderly.idle (by simp)] at awaited
        cases awaited
    · obtain rfl := List.mem_singleton.mp last
      exact .inr rfl

theorem Pool.Orderly.abandon {p : Pool} {pace : Pace} (orderly : p.Orderly pace) (next : Pace) :
    p.abandon.Orderly next := by
  constructor
  case numbered => exact orderly.numbered
  case dropped =>
    intro call member
    rcases List.mem_append.mp member with before | awaited
    · exact orderly.dropped call before
    · exact orderly.waited call (Option.mem_toList.mp awaited)
  case distinct => exact orderly.distinct
  case idle => exact fun _ => rfl
  case waited => exact fun _ member => nomatch member
  case owned =>
    intro call member
    rcases orderly.owned call member with dropped | awaited
    · exact .inl (List.mem_append_left _ dropped)
    · exact .inl (List.mem_append_right _ (Option.mem_toList.mpr awaited))

theorem Pool.Orderly.read {p : Pool} {pace : Pace} (orderly : p.Orderly pace) (done : p.Done) :
    Pool.Orderly { p with awaited := none } .deciding := by
  constructor
  case numbered => exact orderly.numbered
  case dropped => exact orderly.dropped
  case distinct => exact orderly.distinct
  case idle => exact fun _ => rfl
  case waited => exact fun _ member => nomatch member
  case owned =>
    intro call member
    rcases orderly.owned call member with dropped | awaited
    · exact .inl dropped
    · exact absurd member (done call awaited)

theorem Pool.Orderly.returns {p : Pool} {pace : Pace} (orderly : p.Orderly pace) (call : Nat) :
    Pool.Orderly { p with unfinished := p.unfinished.erase call } pace := by
  constructor
  case numbered => exact fun call member => orderly.numbered call (List.mem_of_mem_erase member)
  case dropped => exact orderly.dropped
  case distinct => exact orderly.distinct.erase call
  case idle => exact orderly.idle
  case waited => exact orderly.waited
  case owned => exact fun call member => orderly.owned call (List.mem_of_mem_erase member)

/-- What an operation that the code may perform now does to the pool. -/
theorem Pool.Orderly.after {p : Pool} {pace : Pace} {op : Op} {r : op.Answer}
    (orderly : p.Orderly pace) (allowed : Pace.Allows op pace) (done : op = .vlmResult → p.Done) :
    (p.after op r).Orderly (pace.after op r) := by
  have seen (set : Bool) : Pool.Orderly (if set = true then p.abandon else p)
      (if set = true ∧ pace = .awaiting then .left else pace) := by
    cases set with
    | true => exact orderly.abandon _
    | false => simpa using orderly
  cases op with
  | vlmSubmit ctx =>
    obtain rfl : pace = .deciding := allowed
    exact orderly.submit
  | vlmResult => exact orderly.read (done rfl)
  | preemptIsSet | stopIsSet => exact seen r
  | _ => exact orderly

theorem Pool.Light.submit {p : Pool} {pace : Pace} (light : p.Light) (orderly : p.Orderly pace) :
    p.submit.Light := by
  have same : p.submit.stale = p.stale := by
    have fresh : p.submitted ∉ p.abandoned := fun member =>
      Nat.lt_irrefl _ (orderly.dropped _ member)
    simp [Pool.stale, Pool.submit, List.filter_append, fresh]
  unfold Pool.Light
  rw [same]
  exact light

theorem Pool.Light.abandon {p : Pool} (light : p.Light) (relieved : ¬ p.Done → p.stale = []) :
    p.abandon.Light := by
  by_cases done : p.Done
  · have held {call : Nat} (member : call ∈ p.abandon.stale) : call ∈ p.stale := by
      obtain ⟨unfinished, dropped⟩ := mem_stale.mp member
      rcases List.mem_append.mp dropped with before | awaited
      · exact mem_stale.mpr ⟨unfinished, before⟩
      · exact absurd unfinished (done call (Option.mem_toList.mp awaited))
    exact fun a first b second => light a (held first) b (held second)
  · have held {call : Nat} (member : call ∈ p.abandon.stale) : call ∈ p.awaited := by
      obtain ⟨unfinished, dropped⟩ := mem_stale.mp member
      rcases List.mem_append.mp dropped with before | awaited
      · have stale : call ∈ p.stale := mem_stale.mpr ⟨unfinished, before⟩
        rw [relieved done] at stale
        cases stale
      · exact Option.mem_toList.mp awaited
    exact fun a first b second => Option.some.inj ((held first).symm.trans (held second))

theorem Pool.Light.length_lt {p : Pool} (light : p.Light) (distinct : p.unfinished.Nodup) :
    p.stale.length < maxWorkers := by
  have distinct := distinct.filter (p.abandoned.contains ·)
  change p.stale.Nodup at distinct
  unfold Pool.Light at light
  cases listed : p.stale with
  | nil => decide
  | cons a rest =>
    cases rest with
    | nil => exact Nat.lt_succ_self 1
    | cons b rest =>
      rw [listed] at light distinct
      obtain rfl := light a (by simp) b (by simp)
      simp at distinct

theorem Pool.Light.returns {p : Pool} (light : p.Light) (call : Nat) :
    Pool.Light { p with unfinished := p.unfinished.erase call } := by
  have held {a : Nat} (member : a ∈ Pool.stale { p with unfinished := p.unfinished.erase call }) :
      a ∈ p.stale := by
    obtain ⟨unfinished, dropped⟩ := mem_stale.mp member
    exact mem_stale.mpr ⟨List.mem_of_mem_erase unfinished, dropped⟩
  exact fun a first b second => light a (held first) b (held second)

/-- The main thread goes on at this pace. -/
def MainThread.Paces (pace : Pace) : MainThread → Prop
  | .working _ rest => Paced (fun _ pace => pace ≠ .awaiting) rest pace
  | .waiting => pace ≠ .awaiting
  | .raised _ | .returned => True

/-- One stale call at most, or the process is stopping. -/
def Pool.Spared (p : Pool) (stop : Bool) (pace : Pace) : Prop :=
  p.Light ∨ (stop = true ∧ pace = .left)

/-- A signal was seen. -/
def Op.signals : (op : Op) → op.Answer → Bool
  | .preemptIsSet, set | .stopIsSet, set => set
  | _, _ => false

theorem Pool.Spared.after {p : Pool} {stop : Bool} {pace : Pace} {op : Op} {r : op.Answer}
    (spared : p.Spared stop pace) (orderly : p.Orderly pace) (allowed : Pace.Allows op pace)
    (relieved : op.signals r = true → stop = false → ¬ p.Done → p.stale = []) :
    (p.after op r).Spared stop (pace.after op r) := by
  rcases spared with light | ⟨stopped, rfl⟩
  · have seen (set : Bool) (relieved : set = true → stop = false → ¬ p.Done → p.stale = []) :
        Pool.Spared (if set = true then p.abandon else p) stop
          (if set = true ∧ pace = .awaiting then .left else pace) := by
      cases set with
      | false => exact .inl light
      | true =>
        by_cases going : pace = .awaiting ∧ stop = true
        · exact .inr ⟨going.2, if_pos ⟨rfl, going.1⟩⟩
        · refine .inl (light.abandon fun busy => ?_)
          by_cases awaiting : pace = .awaiting
          · refine relieved rfl ?_ busy
            simpa [awaiting] using going
          · have idle := orderly.idle awaiting
            exact absurd (fun call awaited => by rw [idle] at awaited; cases awaited) busy
    cases op with
    | vlmSubmit ctx => exact .inl (light.submit orderly)
    | preemptIsSet | stopIsSet => exact seen r relieved
    | _ => exact .inl light
  · cases op with
    | vlmSubmit | vlmResult => cases allowed
    | preemptIsSet | stopIsSet => exact .inr ⟨stopped, by simp [Pace.after]⟩
    | _ => exact .inr ⟨stopped, rfl⟩

structure Staffed.Sound (s : Staffed) (pace : Pace) : Prop where
  paces : s.process.main.Paces pace
  orderly : s.pool.Orderly pace

def Staffed.Spared (s : Staffed) (pace : Pace) : Prop := s.pool.Spared s.process.stop pace

/-- What one step keeps, and what it keeps when it is relieved. -/
theorem sound_next {pace : Pace} (sound : s.Sound pace) (moved : Staffed.Next settings py s e s') :
    ∃ next, s'.Sound next ∧ (Staffed.Relieved (s, e) → s.Spared pace → s'.Spared next) := by
  obtain ⟨paces, orderly⟩ := sound
  cases moved with
  | ends running =>
    refine ⟨pace, ⟨paces, orderly.returns _⟩, fun _ spared => ?_⟩
    exact spared.imp (·.returns _) id
  | acts permitted moved =>
    cases moved with
    | takes waiting running head =>
      rw [waiting] at paces
      have awaited := orderly.idle paces
      refine ⟨.deciding, ⟨onCommand_paced settings _, { orderly with idle := fun _ => awaited }⟩, ?_⟩
      rintro _ (light | ⟨stopped, -⟩)
      · exact .inl light
      · rw [running] at stopped
        cases stopped
    | @performs _ command op next r at_op effect =>
      rw [at_op] at paces
      refine ⟨pace.after op r, ⟨paces.performed rfl, orderly.after paces.now_good ?_⟩, ?_⟩
      · rintro rfl
        exact permitted
      · intro relieved spared
        obtain ⟨preempt, mission, rfl, -⟩ := performs_frame effect
        apply Pool.Spared.after spared orderly paces.now_good
        intro seen running busy
        cases op with
        | preemptIsSet =>
          obtain rfl : r = true := seen
          exact relieved rfl running busy
        | stopIsSet =>
          have set : r = true := seen
          rw [← effect.1, set] at running
          cases running
        | _ => cases seen
    | raises at_op raised => exact ⟨pace, ⟨trivial, orderly⟩, fun _ spared => spared⟩
    | finishes ended =>
      rw [ended] at paces
      change Paced _ (.done ()) pace at paces
      have idle : pace ≠ .awaiting := paces.returned () rfl
      exact ⟨pace, ⟨idle, orderly⟩, fun _ spared => spared⟩
    | returns => exact ⟨pace, ⟨trivial, orderly⟩, fun _ spared => spared⟩
    | stops =>
      exact ⟨pace, ⟨paces, orderly⟩, fun _ spared => spared.imp_right fun left => ⟨rfl, left.2⟩⟩
    | _ => exact ⟨pace, ⟨paces, orderly⟩, fun _ spared => spared⟩

/-- At a submission every unfinished call is an abandoned one. -/
theorem submits_stale {pace : Pace} (sound : s.Sound pace)
    (moved : Staffed.Next settings py s e s') (submits : e.Submits) :
    pace = .deciding ∧ s.pool.stale = s.pool.unfinished := by
  obtain ⟨ctx, rfl⟩ := submits
  obtain ⟨paces, orderly⟩ := sound
  cases moved with
  | acts permitted moved =>
    cases moved with
    | performs at_op effect =>
      rw [at_op] at paces
      obtain rfl : pace = .deciding := paces.now_good
      exact ⟨rfl, orderly.all_stale (by simp)⟩

theorem Pool.ready_iff (p : Pool) : p.Ready ↔ p.unfinished.length < maxWorkers := by
  refine ⟨And.left, fun room => ⟨room, ?_⟩⟩
  rw [running, List.take_of_length_le (by simpa [submit] using Nat.succ_le_of_lt room)]
  simp [submit]

/-- A call is run at once, whatever calls never return, as long as each preemption that
abandons an unfinished call finds the earlier ones finished: the calls that keep the
workers busy when one is submitted are abandoned ones. -/
theorem vlm_call_starts (run : Run (Staffed.Next settings py) {} path s) :
    ((∀ p ∈ path, Staffed.Relieved p) → ∀ p ∈ path, p.2.Submits → p.1.pool.Ready) ∧
      ∀ p ∈ path, p.2.Submits → (p.1.pool.Ready ↔ p.1.pool.stale.length < maxWorkers) := by
  have fresh : Staffed.Sound {} .deciding :=
    ⟨by simp [MainThread.Paces], by constructor <;> simp⟩
  constructor
  · intro relieved
    refine (Run.invariant (I := fun s => ∃ pace, s.Sound pace ∧ s.Spared pace)
      (fun s e => Staffed.Relieved (s, e)) (fun s e => e.Submits → s.pool.Ready) ?_ ?_ run
      ⟨.deciding, fresh, .inl (by simp [Pool.Light, Pool.stale])⟩ relieved).2
    · rintro s e t ⟨pace, sound, spared⟩ relieved moved
      obtain ⟨next, sound', keeps⟩ := sound_next sound moved
      exact ⟨next, sound', keeps relieved spared⟩
    · rintro s e t ⟨pace, sound, spared⟩ relieved moved submits
      obtain ⟨rfl, same⟩ := submits_stale sound moved submits
      rcases spared with light | ⟨-, left⟩
      · rw [Pool.ready_iff, ← same]
        exact light.length_lt sound.orderly.distinct
      · cases left
  · intro p member submits
    have found := (Run.invariant (I := fun s => ∃ pace, s.Sound pace) (fun _ _ => True)
      (fun s e => e.Submits → s.pool.stale = s.pool.unfinished) ?_ ?_ run ⟨_, fresh⟩ (by simp)).2
      p member submits
    · rw [Pool.ready_iff, found]
    · rintro s e t ⟨pace, sound⟩ - moved
      obtain ⟨next, sound', -⟩ := sound_next sound moved
      exact ⟨next, sound'⟩
    · rintro s e t ⟨pace, sound⟩ - moved submits
      exact (submits_stale sound moved submits).2

/-! ## Missions aborted at their calls -/

instance (p : Pool) : Decidable p.Done :=
  inferInstanceAs (Decidable (∀ call ∈ p.awaited, call ∉ p.unfinished))

def Staffed.permits? (s : Staffed) : ProcessLabel → Bool
  | .performs .vlmWait _ => decide s.pool.Done || s.process.stop || s.process.preempt
  | .performs .vlmResult _ => decide s.pool.Done
  | _ => true

theorem Staffed.permits?_sound {e : ProcessLabel} (permitted : s.permits? e = true) :
    s.Permits e := by
  unfold permits? at permitted
  unfold Permits
  split at permitted
  · simpa [or_assoc] using permitted
  · exact of_decide_eq_true permitted
  · trivial

def Staffed.step? (settings : Settings) (py : Interpreter) (s : Staffed) :
    StaffedLabel → Option Staffed
  | .acts e =>
    if s.permits? e then (s.process.step? settings py e).map fun t => ⟨t, e.affects s.pool⟩ else none
  | .ends call =>
    if call ∈ s.pool.running then
      some { s with pool := { s.pool with unfinished := s.pool.unfinished.erase call } }
    else none

theorem Staffed.step?_sound (moved : s.step? settings py e = some s') :
    Staffed.Next settings py s e s' := by
  cases e with
  | acts e =>
    simp only [step?, Option.ite_none_right_eq_some, Option.map_eq_some_iff] at moved
    obtain ⟨permitted, t, moved, rfl⟩ := moved
    exact .acts (permits?_sound permitted) (Process.step?_sound moved)
  | ends call =>
    simp only [step?, Option.ite_none_right_eq_some, Option.some.injEq] at moved
    obtain ⟨running, rfl⟩ := moved
    exact .ends running

/-- A mission begins and submits its first call. -/
def submitLabels : List ProcessLabel :=
  offerLabels "fly" ++ [.takes] ++ beginLabels false ++ [.performs (.newMission "fly") (),
    .performs .stopIsSet false, .performs .preemptIsSet false, .performs .queueEmpty true] ++
  (consultLabels "fly").dropLast

/-- An abort comes while the call runs, and is dispatched. -/
def abandonLabels : List ProcessLabel :=
  abortLabels ++ [.performs .vlmWait (), .performs .preemptIsSet true, .performs .stopIsSet false,
    .performs .mission { goalText := "fly" },
    .performs (.appendHistory (.mission "fly" 0 0 .preempted)) (),
    .performs (.publishStatus "idle") (), .finishes, .takes] ++
  beginLabels false ++ [.performs (.publishStatus "aborted") (), .performs .newRequestId "3",
    .performs (.dispatchToolCall abortTool) (accepted abortTool),
    .performs (.appendHistory (.aborted "abort" (accepted abortTool))) (), .finishes]

def submits (e : StaffedLabel) : Bool :=
  match e with
  | .acts (.performs (.vlmSubmit _) _) => true
  | _ => false

theorem submits_sound {e : StaffedLabel} (found : submits e = true) : e.Submits := by
  unfold submits at found
  split at found
  · next ctx r => exact ⟨ctx, rfl⟩
  · cases found

def relieved (p : Staffed × StaffedLabel) : Bool :=
  match p.2 with
  | .acts (.performs .preemptIsSet _) => decide p.1.pool.Done || p.1.pool.stale.isEmpty
  | _ => true

theorem relieved_sound {p : Staffed × StaffedLabel} (found : relieved p = true) :
    Staffed.Relieved p := by
  obtain ⟨s, e⟩ := p
  rintro rfl - busy
  simpa [relieved, busy] using found

/-- A mission is aborted while its call runs; the next one's call starts beside it. -/
theorem vlm_call_starts_after_abort : ∃ path s,
    Run (Staffed.Next asciiSettings plainPython) {} path s ∧ (∀ p ∈ path, Staffed.Relieved p) ∧
    (∃ p ∈ path, p.2.Submits ∧ p.1.pool.stale ≠ []) ∧ ∀ p ∈ path, p.2.Submits → p.1.pool.Ready := by
  have checked : (replay (Staffed.step? asciiSettings plainPython) {}
      ((submitLabels ++ abandonLabels ++ submitLabels).map .acts)).any (fun ran =>
        ran.1.all relieved && ran.1.any fun p => submits p.2 && !p.1.pool.stale.isEmpty) = true := by
    decide +kernel
  obtain ⟨⟨path, s⟩, ran, checked⟩ := (Option.any_eq_true _ _).mp checked
  obtain ⟨all_relieved, again⟩ := Bool.and_eq_true_iff.mp checked
  obtain ⟨p, member, again⟩ := List.any_eq_true.mp again
  obtain ⟨submitting, busy⟩ := Bool.and_eq_true_iff.mp again
  have run := Run.of_replay Staffed.step?_sound ran
  have all_relieved (p : _) (member : p ∈ path) : Staffed.Relieved p :=
    relieved_sound (List.all_eq_true.mp all_relieved p member)
  refine ⟨path, s, run, all_relieved, ⟨p, member, submits_sound submitting, ?_⟩,
    (vlm_call_starts run).1 all_relieved⟩
  simpa using busy

/-- The calls of two aborted missions keep both workers from the third. -/
theorem third_call_queued : ¬ ∀ (settings : Settings) (py : Interpreter) path s,
    Run (Staffed.Next settings py) {} path s → ∀ p ∈ path, p.2.Submits → p.1.pool.Ready := by
  intro claimed
  have checked : (replay (Staffed.step? asciiSettings plainPython) {}
      ((submitLabels ++ abandonLabels ++ submitLabels ++ abandonLabels ++ submitLabels).map
        .acts)).any (fun ran => ran.1.any fun p =>
          submits p.2 && decide (maxWorkers ≤ p.1.pool.unfinished.length)) = true := by
    decide +kernel
  obtain ⟨⟨path, s⟩, ran, checked⟩ := (Option.any_eq_true _ _).mp checked
  obtain ⟨p, member, found⟩ := List.any_eq_true.mp checked
  obtain ⟨submitting, full⟩ := Bool.and_eq_true_iff.mp found
  have run := Run.of_replay Staffed.step?_sound ran
  have ready := claimed _ _ path s run p member (submits_sound submitting)
  exact absurd (of_decide_eq_true full) (Nat.not_le_of_lt ready.1)

end Lexaire.Orchestrator
