import Lexaire.Orchestrator.Custody
import Lexaire.Orchestrator.Script

/-! Aborts between the command thread and the main thread. The signal is split
over the queue and the event, which a command clears when it begins. -/
namespace Lexaire.Orchestrator
open Atomic Transition Op

variable {settings : Settings} {py : Interpreter} {path : History} {s s' : Process}
  {e : ProcessLabel} {n : Nat}

def ProcessLabel.op? : ProcessLabel → Option Op
  | .performs op _ | .raises op _ => some op
  | _ => none

def ProcessLabel.callsNonAbort (e : ProcessLabel) : Bool := e.op?.any Op.nonAbort

def ProcessLabel.submits (e : ProcessLabel) : Bool := e.op?.any Op.submits

/-- A step of the main thread. -/
def ProcessLabel.ofMain : ProcessLabel → Bool
  | .takes | .performs _ _ | .raises _ _ | .finishes | .returns => true
  | _ => false

/-- The command thread has taken an abort out of the queue for the one in its hands. -/
def Receiver.Replaces (abort : Command) : Receiver → Prop
  | .draining c drained | .putting c drained => c = abort ∧ ∃ d ∈ drained, d.cmd.isAbort = true
  | _ => False

/-- The loop-top test does not find the queue empty where one abort replaces another. -/
def Steady (p : Process × ProcessLabel) : Prop :=
  p.2 = .performs .queueEmpty true → p.1.preempt = true ∨ ∀ c, ¬ p.1.receiver.Replaces c

/-- An abort, that one or a later one, waits for the main thread. -/
inductive Pending (s : Process) (n : Nat) : Prop where
  | queued {c : Command} (queued : c ∈ s.queue) (isAbort : c.cmd.isAbort = true)
      (number : n ≤ c.number)
  | replaced {c : Command} (replaces : s.receiver.Replaces c) (number : n ≤ c.number)

/-- The main thread holds such an abort and has not called yet. -/
def Held (s : Process) (n : Nat) : Prop :=
  ∃ c rest, s.main = .working c rest ∧ c.cmd.isAbort = true ∧ n ≤ c.number ∧ Reaches rest

theorem replaces_next (orderly : Orderly s) {c : Command} (replaces : s.receiver.Replaces c)
    (moved : Process.Next settings py s e s') :
    s'.receiver.Replaces c ∨ (c ∈ s'.queue ∧ c.cmd.isAbort = true) := by
  have fits := orderly.receiver
  cases moved with
  | receives polling | garbled polling => simp [polling, Receiver.Replaces] at replaces
  | drains draining =>
    rw [draining] at replaces
    obtain ⟨rfl, d, member, isAbort⟩ := replaces
    exact .inl ⟨rfl, d, List.mem_append_left _ member, isAbort⟩
  | drained draining => exact .inl (by rw [draining] at replaces; exact replaces)
  | puts putting =>
    rw [putting] at replaces fits
    obtain ⟨rfl, -⟩ := replaces
    exact .inr ⟨by simp, fits.1⟩
  | full putting full =>
    rw [putting] at fits
    simp [fits.2.2, capacity] at full
  | sets setting => simp [setting, Receiver.Replaces] at replaces
  | offers offering => simp [offering, Receiver.Replaces] at replaces
  | performs at_op effect =>
    obtain ⟨preempt, mission, rfl, -⟩ := performs_frame effect
    exact .inl replaces
  | _ => exact .inl replaces

theorem Pending.next (orderly : Orderly s) (pending : Pending s n)
    (moved : Process.Next settings py s e s') : Pending s' n ∨ Held s' n := by
  cases pending with
  | @queued c queued isAbort number =>
    rcases queued_next queued moved with still | taken | ⟨abort, drained, draining, draining'⟩
    · exact .inl (.queued still isAbort number)
    · have reaches := (onCommand_abort settings (isAbort_of_flag isAbort)).2
      exact .inr ⟨c, _, taken, isAbort, number, reaches⟩
    · have fits := orderly.receiver
      rw [draining] at fits
      have younger := fits.2.2 c queued
      refine .inl (.replaced (c := abort) ?_ (by omega))
      rw [draining']
      exact ⟨rfl, c, by simp, isAbort⟩
  | replaced replaces number =>
    rcases replaces_next orderly replaces moved with still | ⟨queued, isAbort⟩
    · exact .inl (.replaced still number)
    · exact .inl (.queued queued isAbort number)

section Alert
variable {opens : (op : Op) → op.Answer → Bool} {mid : History}

/-- What a command may still do: nothing before the way is open, or all of it with
the event set. -/
def Heeds (opens : (op : Op) → op.Answer → Bool) (s : Process) : Prop :=
  ∀ c rest, s.main = .working c rest →
    Until opens rest ∨ (s.preempt = true ∧ Underway rest ∧ Guarded false rest)

def Still (mid : History) : Prop := ∀ q ∈ mid, q.2.ofMain = false

/-- The event is set and the main thread has not moved since, or it heeds it. -/
def Alert (opens : (op : Op) → op.Answer → Bool) (mid : History) (s : Process) : Prop :=
  (Still mid ∧ s.preempt = true) ∨ Heeds opens s

theorem others_next (moved : Process.Next settings py s e s') (others : e.ofMain = false) :
    s'.main = s.main ∧ (s.preempt = true → s'.preempt = true) := by
  cases moved with
  | takes | performs | raises | finishes | returns => cases others
  | sets => exact ⟨rfl, fun _ => rfl⟩
  | _ => exact ⟨rfl, id⟩

/-- With the event set, no test of it opens the way. -/
theorem proceeding_set {op : Op} {next : op.Answer → Code Unit} {r : op.Answer}
    (set : s.preempt = true) (proceeding : Proceeding (.step op next))
    (effect : Process.performs op s r s') :
    s'.preempt = true ∧ Underway (next r) ∧ Guarded false (next r) := by
  obtain ⟨underway, cleared, guarded⟩ := proceeding
  obtain ⟨preempt, mission, rfl, kept⟩ := performs_frame effect
  have deaf : op.clears r = false := by
    cases op with
    | preemptIsSet =>
      obtain ⟨rfl, -⟩ := effect
      simp [Op.clears, set]
    | _ => rfl
  have rest := guarded.2 r
  rw [deaf] at rest
  exact ⟨(kept underway.1).trans set, underway.2 r, rest⟩

theorem Alert.next (alert : Alert opens mid s)
    (shaped : ∀ c rest, s.main = .working c rest → Until opens rest ∨ Proceeding rest)
    (fresh : ∀ cmd, Until opens (onCommand settings cmd))
    (openers : ∀ op r, opens op r = true → op.afterResets = true)
    (moved : Process.Next settings py s e s') : Alert opens (mid ++ [(s, e)]) s' ∨
      (s.preempt = false ∧ ∃ op r, e = .performs op r ∧ opens op r = true) := by
  cases others : e.ofMain with
  | false =>
    obtain ⟨same, kept⟩ := others_next moved others
    left
    rcases alert with ⟨still, set⟩ | heeds
    · refine .inl ⟨fun q member => ?_, kept set⟩
      rcases List.mem_append.mp member with earlier | last
      · exact still q earlier
      · obtain rfl := List.mem_singleton.mp last
        exact others
    · refine .inr fun c rest working => ?_
      rcases heeds c rest (same ▸ working) with waits | ⟨set, rest⟩
      · exact .inl waits
      · exact .inr ⟨kept set, rest⟩
  | true =>
    cases moved with
    | @takes command queue waiting running head =>
      refine .inl (.inr fun c rest working => ?_)
      obtain ⟨rfl, rfl⟩ := MainThread.working.inj working
      exact .inl (fresh command.cmd)
    | @performs s'' command op next r at_op effect =>
      have shape := shaped command _ at_op
      have before : Until opens (.step op next) ∨
          (s.preempt = true ∧ Proceeding (.step op next)) := by
        rcases alert with ⟨still, set⟩ | heeds
        · exact shape.imp_right fun proceeding => ⟨set, proceeding⟩
        · exact (heeds command _ at_op).imp_right fun rest => ⟨rest.1, rest.2.1, false, rest.2.2⟩
      have heeding (rest : Until opens (next r) ∨
          (s''.preempt = true ∧ Underway (next r) ∧ Guarded false (next r))) :
          Alert opens (mid ++ [(s, .performs op r)])
            { s'' with main := .working command (next r) } := by
        refine .inr fun c rest' working => ?_
        obtain ⟨rfl, rfl⟩ := MainThread.working.inj working
        exact rest
      rcases before with waits | ⟨set, proceeding⟩
      · rcases waits.next r with waits | ⟨opened, underway, guarded⟩
        · exact .inl (heeding (.inl waits))
        · cases set : s.preempt with
          | false => exact .inr ⟨rfl, op, r, rfl, opened⟩
          | true =>
            obtain ⟨preempt, mission, rfl, kept⟩ := performs_frame effect
            have stays := (kept (openers op r opened)).trans set
            exact .inl (heeding (.inr ⟨stays, underway, guarded⟩))
      · exact .inl (heeding (.inr (proceeding_set set proceeding effect)))
    | raises | finishes | returns =>
      refine .inl (.inr ?_)
      rintro c rest ⟨⟩
    | _ => cases others

/-- A call of another tool than `abort` comes from a command at work. -/
theorem call_at (moved : Process.Next settings py s e s') (call : e.callsNonAbort = true) :
    ∃ c op next, s.main = .working c (.step op next) ∧ op.nonAbort = true := by
  cases moved with
  | performs at_op => exact ⟨_, _, _, at_op, call⟩
  | raises at_op => exact ⟨_, _, _, at_op, call⟩
  | _ => cases call

theorem Alert.call (alert : Alert opens mid s) (moved : Process.Next settings py s e s')
    (call : e.callsNonAbort = true) : Still mid := by
  rcases alert with ⟨still, -⟩ | heeds
  · exact still
  · obtain ⟨c, op, next, working, nonAbort⟩ := call_at moved call
    rcases heeds c _ working with waits | ⟨-, -, guarded⟩
    · simp [waits.quiet] at nonAbort
    · cases guarded.1 nonAbort

end Alert

/-- An abort of that number was or will be answered before any other tool is called. -/
inductive Answered (path mid : History) (s : Process) (n : Nat) : Prop where
  | dispatched {m : Nat} (later : n ≤ m) (dispatched : Dispatched path m)
  | isOver (isOver : s.main.Over)
  | held (held : Held s n)
  | pending (pending : Pending s n) (alert : Alert Op.passes mid s)

theorem passes_eq {op : Op} {r : op.Answer} (passes : op.passes r = true) :
    ProcessLabel.performs op r = .performs .queueEmpty true := by
  cases op with
  | queueEmpty =>
    obtain rfl : r = true := passes
    rfl
  | _ => cases passes

theorem Answered.next {mid : History} (custody : Custody py path s)
    (answered : Answered path mid s n) (steady : Steady (s, e))
    (moved : Process.Next settings py s e s') :
    Answered (path ++ [(s, e)]) (mid ++ [(s, e)]) s' n := by
  have holds (held : Held s n) : Answered (path ++ [(s, e)]) (mid ++ [(s, e)]) s' n := by
    obtain ⟨c, rest, working, isAbort, number, reaches⟩ := held
    rcases held_next working isAbort reaches moved with dispatched | isOver | ⟨rest', still, reaches⟩
    · exact .dispatched number dispatched
    · exact .isOver isOver
    · exact .held ⟨c, rest', still, isAbort, number, reaches⟩
  cases answered with
  | dispatched later dispatched => exact .dispatched later dispatched.mono
  | isOver isOver => exact .isOver (Over.next isOver moved)
  | held held => exact holds held
  | pending pending alert =>
    have shaped (c : Command) (rest : Code Unit) (working : s.main = .working c rest) :
        Tests rest ∨ Proceeding rest := by
      have shaped := custody.shaped
      rw [working] at shaped
      exact shaped.1
    have openers (op : Op) (r : op.Answer) (passes : op.passes r = true) :
        op.afterResets = true := by
      cases op with
      | queueEmpty => rfl
      | _ => cases passes
    rcases pending.next custody.orderly moved with pending' | held
    · rcases alert.next shaped (fun cmd => (onCommand_until settings cmd).1) openers moved with
        alert | ⟨clear, op, r, rfl, passes⟩
      · exact .pending pending' alert
      · -- the queue was found empty, so the abort is in the command thread's hands
        have found := passes_eq passes
        rcases steady found with set | nothing
        · simp [clear] at set
        · cases pending with
          | replaced replaces => exact absurd replaces (nothing _)
          | @queued c queued =>
            rw [found] at moved
            cases moved with
            | performs at_op effect =>
              obtain ⟨empty, -⟩ := effect
              rw [List.isEmpty_iff.mp empty.symm] at queued
              cases queued
    · exact .held held

/-- When the event has been set for an abort. -/
theorem Answered.of_sets {abort : Command} (custody : Custody py path s)
    (setting : s.receiver = .setting abort) (moved : Process.Next settings py s .sets s') :
    Answered (path ++ [(s, .sets)]) [] s' abort.number := by
  have received := custody.known abort (by rw [setting]; rfl)
  have latest := custody.orderly.receiver
  rw [setting] at latest
  cases moved with
  | sets setting' =>
    cases custody.accounted _ received with
    | inHand inHand => simp [setting, Receiver.inHand] at inHand
    | queued queued isAbort number =>
      refine .pending (.queued queued isAbort number.ge) (.inl ⟨?_, rfl⟩)
      rintro q ⟨⟩
    | @held c rest working isAbort number reaches =>
      exact .held ⟨c, rest, working, isAbort, number.ge, reaches⟩
    | dispatched dispatched => exact .dispatched (Nat.le_refl _) dispatched.mono
    | superseded later received' =>
      have bound := custody.counted _ received'
      have := latest.2
      omega
    | isOver isOver => exact .isOver isOver

/-- A call of another tool finds the abort dispatched, or is the first step since. -/
theorem Answered.call {mid : History} (custody : Custody py path s)
    (answered : Answered path mid s n) (moved : Process.Next settings py s e s')
    (call : e.callsNonAbort = true) : Still mid ∨ ∃ m, n ≤ m ∧ Dispatched path m := by
  obtain ⟨c, op, next, working, nonAbort⟩ := call_at moved call
  cases answered with
  | @dispatched m later dispatched => exact .inr ⟨m, later, dispatched⟩
  | isOver isOver => simp [working, MainThread.Over] at isOver
  | held held =>
    obtain ⟨c', rest, working', isAbort, -⟩ := held
    obtain ⟨rfl, rfl⟩ := MainThread.working.inj (working.symm.trans working')
    have shaped := custody.shaped
    rw [working] at shaped
    have quiet := (shaped.2.2 isAbort).1
    simp [nonAbort] at quiet
  | pending pending alert => exact .inl (alert.call moved call)

/-- A list in which nothing precedes a member counts one at most. -/
theorem countP_le_one {α : Type} {p : α → Bool} (l : List α)
    (first : ∀ a x b, l = a ++ x :: b → p x = true → a.countP p = 0) : l.countP p ≤ 1 := by
  induction l using List.reverseRecOn with
  | nil => simp
  | append_singleton l x ih =>
    rw [List.countP_append, List.countP_singleton]
    cases here : p x with
    | false => simpa using ih fun a y b split => first a y (b ++ [x]) (by simp [split])
    | true => simp [first l x [] rfl here]

theorem Still.countP {mid : History} (still : Still mid) :
    mid.countP (·.2.callsNonAbort) = 0 := by
  rw [List.countP_eq_zero]
  rintro ⟨t, e⟩ member call
  have others := still _ member
  cases e <;> first | cases call | cases others

theorem answered_run {before mid : History} {t u : Process} {abort : Command}
    (first : Run (Process.Next settings py) {} (before ++ [(t, .sets)]) u)
    (setting : t.receiver = .setting abort) (later : Run (Process.Next settings py) u mid s)
    (steady : ∀ p ∈ mid, Steady p) : Answered (before ++ [(t, .sets)] ++ mid) mid s abort.number := by
  obtain ⟨earlier, set⟩ := first.last rfl
  suffices together : Custody py (before ++ [(t, .sets)] ++ mid) s ∧
      Answered (before ++ [(t, .sets)] ++ mid) mid s abort.number from together.2
  refine later.invariant_history
    (I := fun mid s => Custody py (before ++ [(t, .sets)] ++ mid) s ∧
      Answered (before ++ [(t, .sets)] ++ mid) mid s abort.number)
    (fun _ p => Steady p) ?_ ?_ fun a p b split => steady p (by simp [split])
  · rintro mid s e s' ⟨custody, answered⟩ steady moved
    have custody' := custody.next moved
    have answered' := answered.next custody steady moved
    rw [List.append_assoc] at custody' answered'
    exact ⟨custody', answered'⟩
  · rw [List.append_nil]
    exact ⟨custody_run first, .of_sets (custody_run earlier) setting set⟩

/-- A decision was asked for since, or the event is heeded until one is. -/
theorem consulted_run {u : Process} {mid : History} (set : u.preempt = true)
    (shaped : u.main.Shaped) (later : Run (Process.Next settings py) u mid s) :
    (∃ p ∈ mid, p.2.submits = true) ∨ Alert (fun op _ => op.submits) mid s := by
  suffices together : s.main.Shaped ∧
      ((∃ p ∈ mid, p.2.submits = true) ∨ Alert (fun op _ => op.submits) mid s) from together.2
  refine later.invariant_history
    (I := fun mid s => s.main.Shaped ∧
      ((∃ p ∈ mid, p.2.submits = true) ∨ Alert (fun op _ => op.submits) mid s))
    (fun _ _ => True) ?_ ?_ fun _ _ _ _ => trivial
  · rintro mid s e s' ⟨shaped, asked⟩ - moved
    refine ⟨Shaped.next shaped moved, ?_⟩
    rcases asked with ⟨p, member, submits⟩ | alert
    · exact .inl ⟨p, List.mem_append_left _ member, submits⟩
    · have asks (c : Command) (rest : Code Unit) (working : s.main = .working c rest) :
          Asks rest ∨ Proceeding rest := by
        rw [working] at shaped
        exact shaped.2.1
      have openers (op : Op) (r : op.Answer) (submits : op.submits = true) :
          op.afterResets = true := by
        cases op with
        | vlmSubmit ctx => rfl
        | _ => cases submits
      rcases alert.next asks (fun cmd => (onCommand_until settings cmd).2) openers moved with
        alert | ⟨-, op, r, rfl, submits⟩
      · exact .inr alert
      · exact .inl ⟨(s, .performs op r), by simp, submits⟩
  · refine ⟨shaped, .inr (.inl ⟨?_, set⟩)⟩
    rintro q ⟨⟩

/-- A received abort is never lost: at rest it or a later one has been dispatched.
After the event was set for an abort, a call of another tool is the main thread's
next step or belongs to a decision asked for since; where the loop-top test never
meets a half-replaced abort, at most one precedes the dispatch. -/
theorem abort_priority (run : Run (Process.Next settings py) {} path s) :
    (∀ n, AbortReceived py path n → Accounted py path s n) ∧
    (Quiescent s → ∀ n, AbortReceived py path n → ∃ m, n ≤ m ∧ Dispatched path m) ∧
    ∀ before t abort mid, path = before ++ (t, .sets) :: mid → t.receiver = .setting abort →
      (∀ first q rest, mid = first ++ q :: rest → q.2.callsNonAbort = true →
        Still first ∨ ∃ p ∈ first, p.2.submits = true) ∧
      ((∀ p ∈ path, Steady p) → (∀ m, abort.number ≤ m → ¬ Dispatched path m) →
        mid.countP (·.2.callsNonAbort) ≤ 1) := by
  have custody := custody_run run
  refine ⟨custody.accounted, fun quiescent n received => custody.dispatched quiescent received, ?_⟩
  intro before t abort mid at_sets setting
  obtain ⟨u, first_run, later⟩ := run.cut (at_sets.trans (List.append_cons before _ mid))
  constructor
  · intro first q rest split call
    obtain ⟨v, until_call, called⟩ := later.split split
    have set : u.preempt = true := by
      obtain ⟨-, set⟩ := first_run.last rfl
      cases set with
      | sets => rfl
    rcases consulted_run set (custody_run first_run).shaped until_call with asked | alert
    · exact .inr asked
    · exact .inl (alert.call called call)
  · intro steady undispatched
    apply countP_le_one
    intro first q rest split call
    obtain ⟨v, until_call, called⟩ := later.split split
    have answered := answered_run first_run setting until_call fun p member =>
      steady p (by simp [at_sets, split, member])
    rcases answered.call (custody_run (first_run.trans until_call)) called call with
      still | ⟨m, above, dispatched⟩
    · exact still.countP
    · refine absurd ?_ (undispatched m above)
      have whole : path = before ++ [(t, .sets)] ++ first ++ q :: rest := by simp [at_sets, split]
      exact whole ▸ dispatched.mono

/-! ## Two runs -/

def takeoff : ToolCall := { requestId := "1", name := "takeoff", args := [("altitude_m", .integer 2)] }

def gotoNed : ToolCall := { requestId := "2", name := "goto_ned" }

def abortTool : ToolCall := { requestId := "3", name := "abort" }

def accepted (tc : ToolCall) : ToolResult := { requestId := .string tc.requestId, ok := true }

/-- A decision of two calls. -/
def decideLabels : List ProcessLabel := [
  .performs .preemptIsSet false, .performs .stopIsSet false,
  .performs .vlmResult (.ok { thought := "up", toolCalls := [takeoff, gotoNed] }),
  .performs (.publishStatus "executing") ()]

def abortLabels : List ProcessLabel :=
  [.receives (.ok (commandHeader "abort" true)), .drained, .puts, .sets]

/-- An abort comes between the test of the event and the first call. -/
def interruptedLabels : List ProcessLabel :=
  offerLabels "fly" ++ [.takes] ++ beginLabels false ++ [.performs (.newMission "fly") (),
    .performs .stopIsSet false, .performs .preemptIsSet false, .performs .queueEmpty true] ++
  consultLabels "fly" ++ decideLabels ++ [.performs .stopIsSet false, .performs .preemptIsSet false] ++
  abortLabels ++ [.performs (.dispatchToolCall takeoff) (accepted takeoff),
    .performs (.record (executedStep takeoff (accepted takeoff)) true) (),
    .performs .stopIsSet false, .performs .preemptIsSet true]

def preemptedMission : OrchestratorMission :=
  (({ goalText := "fly" } : OrchestratorMission).record
    (executedStep takeoff (accepted takeoff)) true).record (skippedStep "skipped:preempted" gotoNed) false

/-- The mission ends and the abort is dispatched. -/
def answeredLabels : List ProcessLabel :=
  [.performs (.record (skippedStep "skipped:preempted" gotoNed) false) (),
    .performs .stopIsSet false, .performs .mission preemptedMission,
    .performs (.appendHistory (.mission "fly" 1 1 .preempted)) (),
    .performs (.publishStatus "idle") (), .finishes, .takes] ++
  beginLabels false ++ [.performs (.publishStatus "aborted") (), .performs .newRequestId "3",
    .performs (.dispatchToolCall abortTool) (accepted abortTool),
    .performs (.appendHistory (.aborted "abort" (accepted abortTool))) (), .finishes]

/-- The first abort is handled before the mission has begun; the second takes it out
of the queue and is not put before the mission has made its calls. -/
def replacedLabels : List ProcessLabel :=
  offerLabels "fly" ++ [.takes] ++ abortLabels ++ beginLabels false ++
  [.performs (.newMission "fly") (), .performs .stopIsSet false, .performs .preemptIsSet false,
    .receives (.ok (commandHeader "abort" true)), .drains, .performs .queueEmpty true] ++
  consultLabels "fly" ++ decideLabels ++ callLabels takeoff (accepted takeoff) ++
  callLabels gotoNed (accepted gotoNed)

/-- The first abort whose event was set, and the history since. -/
def afterSets? : History → Option (Command × History)
  | [] => none
  | (t, .sets) :: mid =>
    match t.receiver with
    | .setting abort => some (abort, mid)
    | _ => none
  | _ :: rest => afterSets? rest

theorem afterSets?_eq {path mid : History} {abort : Command}
    (found : afterSets? path = some (abort, mid)) :
    ∃ before t, path = before ++ (t, .sets) :: mid ∧ t.receiver = .setting abort := by
  induction path with
  | nil => cases found
  | cons p rest ih =>
    obtain ⟨t, e⟩ := p
    have later (found : afterSets? rest = some (abort, mid)) : ∃ before u,
        (t, e) :: rest = before ++ (u, .sets) :: mid ∧ u.receiver = .setting abort := by
      obtain ⟨before, u, rfl, setting⟩ := ih found
      exact ⟨(t, e) :: before, u, rfl, setting⟩
    cases e with
    | sets =>
      simp only [afterSets?] at found
      split at found
      · rename_i setting
        obtain ⟨rfl, rfl⟩ := Prod.mk.inj (Option.some.inj found)
        exact ⟨[], t, rfl, setting⟩
      · cases found
    | _ => exact later found

def ProcessLabel.callsAbort : ProcessLabel → Bool
  | .performs op _ => op.abortCall
  | _ => false

theorem undispatched {path : History} (none_calls : path.all (!·.2.callsAbort) = true) (n : Nat) :
    ¬ Dispatched path n := by
  rintro ⟨t, tc, result, command, rest, member, named, -⟩
  have calls := List.all_eq_true.mp none_calls _ member
  simp [ProcessLabel.callsAbort, Op.abortCall, named] at calls

/-- `Steady`, where the command thread is between commands or the event is set. -/
def steady (p : Process × ProcessLabel) : Bool :=
  match p.2 with
  | .performs .queueEmpty true =>
    match p.1.receiver with
    | .polling => true
    | _ => p.1.preempt
  | _ => true

theorem steady_sound {p : Process × ProcessLabel} (checked : steady p = true) : Steady p := by
  obtain ⟨s, e⟩ := p
  rintro rfl
  simp only [steady] at checked
  split at checked
  · rename_i polling
    right
    intro c replaces
    rw [polling] at replaces
    exact replaces
  · exact .inl checked

def quiescent (s : Process) : Bool :=
  match s.receiver, s.queue, s.main with
  | .polling, [], .waiting => true
  | _, _, _ => false

theorem quiescent_sound {s : Process} (checked : quiescent s = true) : Quiescent s := by
  unfold quiescent at checked
  split at checked
  · rename_i polling empty waiting
    exact ⟨polling, empty, waiting⟩
  · cases checked

def receivesAbort (n : Nat) (p : Process × ProcessLabel) : Bool :=
  match p.2 with
  | .receives frame =>
    match frame.bind (VoiceCommand.ofHeader plainPython) with
    | .ok cmd => cmd.isAbort && p.1.received == n
    | .error _ => false
  | _ => false

theorem receivesAbort_sound {path : History} {n : Nat}
    (checked : path.any (receivesAbort n) = true) : AbortReceived plainPython path n := by
  obtain ⟨⟨t, e⟩, member, checked⟩ := List.any_eq_true.mp checked
  unfold receivesAbort at checked
  split at checked
  · rename_i frame is_frame
    obtain rfl := is_frame
    split at checked
    · rename_i cmd decoded
      simp only [Bool.and_eq_true, beq_iff_eq] at checked
      exact ⟨t, frame, cmd, member, decoded, checked.1, checked.2⟩
    · cases checked
  · cases checked

/-- A run to rest, and a run that one call still follows the abort in. -/
theorem abort_priority_interrupted :
    (∃ path s, Run (Process.Next asciiSettings plainPython) {} path s ∧ Quiescent s ∧
      AbortReceived plainPython path 1 ∧ ∃ m, 1 ≤ m ∧ Dispatched path m) ∧
    ∃ path s, Run (Process.Next asciiSettings plainPython) {} path s ∧ (∀ p ∈ path, Steady p) ∧
      ∃ before t abort mid, path = before ++ (t, .sets) :: mid ∧ t.receiver = .setting abort ∧
        (∀ m, abort.number ≤ m → ¬ Dispatched path m) ∧
        mid.countP (·.2.callsNonAbort) = 1 := by
  constructor
  · have checked : (replay (Process.step? asciiSettings plainPython) {}
        (interruptedLabels ++ answeredLabels)).any
        (fun ran => quiescent ran.2 && ran.1.any (receivesAbort 1)) = true := by
      decide +kernel
    obtain ⟨⟨path, s⟩, ran, checked⟩ := (Option.any_eq_true _ _).mp checked
    obtain ⟨rests, receives⟩ := Bool.and_eq_true_iff.mp checked
    have run := Run.of_replay Process.step?_sound ran
    have received := receivesAbort_sound receives
    have rests := quiescent_sound rests
    exact ⟨path, s, run, rests, received, (abort_priority run).2.1 rests 1 received⟩
  · have checked : (replay (Process.step? asciiSettings plainPython) {} interruptedLabels).any
        (fun ran => ran.1.all steady && ran.1.all (!·.2.callsAbort) &&
          (afterSets? ran.1).any fun found => 1 ≤ found.2.countP (·.2.callsNonAbort)) = true := by
      decide +kernel
    obtain ⟨⟨path, s⟩, ran, checked⟩ := (Option.any_eq_true _ _).mp checked
    simp only [Bool.and_eq_true] at checked
    obtain ⟨⟨steadily, none_calls⟩, some_call⟩ := checked
    obtain ⟨⟨abort, mid⟩, found, some_call⟩ := (Option.any_eq_true _ _).mp some_call
    obtain ⟨before, t, at_sets, setting⟩ := afterSets?_eq found
    have run := Run.of_replay Process.step?_sound ran
    have steadily (p : Process × ProcessLabel) (member : p ∈ path) : Steady p :=
      steady_sound (List.all_eq_true.mp steadily p member)
    have undispatched (m : Nat) (_ : abort.number ≤ m) := undispatched none_calls m
    have at_most := ((abort_priority run).2.2 before t abort mid at_sets setting).2 steadily undispatched
    exact ⟨path, s, run, steadily, before, t, abort, mid, at_sets, setting, undispatched,
      Nat.le_antisymm at_most (of_decide_eq_true some_call)⟩

/-- Two calls are made after an abort has been handled and before any is dispatched. -/
theorem abort_overtaken : ¬ ∀ (settings : Settings) (py : Interpreter) (path : History)
    (s : Process), Run (Process.Next settings py) {} path s → ∀ before t abort mid,
      path = before ++ (t, .sets) :: mid → t.receiver = .setting abort →
      (∀ m, abort.number ≤ m → ¬ Dispatched path m) →
      mid.countP (·.2.callsNonAbort) ≤ 1 := by
  intro claimed
  have checked : (replay (Process.step? asciiSettings plainPython) {} replacedLabels).any
      (fun ran => ran.1.all (!·.2.callsAbort) &&
        (afterSets? ran.1).any fun found => 2 ≤ found.2.countP (·.2.callsNonAbort)) = true := by
    decide +kernel
  obtain ⟨⟨path, s⟩, ran, checked⟩ := (Option.any_eq_true _ _).mp checked
  obtain ⟨none_calls, two_calls⟩ := Bool.and_eq_true_iff.mp checked
  obtain ⟨⟨abort, mid⟩, found, two_calls⟩ := (Option.any_eq_true _ _).mp two_calls
  obtain ⟨before, t, at_sets, setting⟩ := afterSets?_eq found
  have at_most := claimed _ _ path s (.of_replay Process.step?_sound ran) before t abort mid
    at_sets setting fun m _ => undispatched none_calls m
  exact absurd (of_decide_eq_true two_calls) (Nat.not_le_of_lt (Nat.lt_succ_of_le at_most))

end Lexaire.Orchestrator
