import Lexaire.Orchestrator.Guards

/-! A received abort from the hands of the command thread to the `abort` call. Only
the head of the queue can be an abort, and it is put when the queue is empty. -/
namespace Lexaire.Orchestrator
open Atomic Transition Op

variable {settings : Settings} {py : Interpreter}

/-! ## The queue -/

def Receiver.Fits (queue : List Command) (received : Nat) : Receiver → Prop
  | .polling => True
  | .draining abort _ =>
    abort.cmd.isAbort = true ∧ abort.number + 1 = received ∧ ∀ c ∈ queue, c.number < abort.number
  | .putting abort _ => abort.cmd.isAbort = true ∧ abort.number + 1 = received ∧ queue = []
  | .setting abort => abort.cmd.isAbort = true ∧ abort.number + 1 = received
  | .offering command => command.cmd.isAbort = false ∧ command.number < received

/-- Commands are numbered upwards and only the head of the queue can be an abort. -/
structure Orderly (s : Process) : Prop where
  tail : ∀ c ∈ s.queue.tail, c.cmd.isAbort = false
  numbered : ∀ c ∈ s.queue, c.number < s.received
  receiver : s.receiver.Fits s.queue s.received

/-- What an operation of the main thread leaves alone. -/
theorem performs_frame {op : Op} {s s' : Process} {r : op.Answer}
    (effect : Process.performs op s r s') : ∃ preempt mission,
      s' = { s with preempt, mission } ∧ (op.afterResets = true → preempt = s.preempt) := by
  cases op with
  | preemptClear => exact ⟨false, s.mission, effect, fun fits => by cases fits⟩
  | newMission goal => exact ⟨s.preempt, _, effect, fun _ => rfl⟩
  | record step executed => exact ⟨s.preempt, _, effect, fun _ => rfl⟩
  | stopIsSet | preemptIsSet | queueEmpty | mission =>
    obtain ⟨-, rfl⟩ := effect
    exact ⟨s'.preempt, s'.mission, rfl, fun _ => rfl⟩
  | vlmSubmit ctx =>
    obtain ⟨-, -, rfl⟩ := effect
    exact ⟨s'.preempt, s'.mission, rfl, fun _ => rfl⟩
  | _ => exact ⟨s.preempt, s.mission, effect, fun _ => rfl⟩

theorem Receiver.Fits.fewer {queue queue' : List Command} {received : Nat} {receiver : Receiver}
    (fits : receiver.Fits queue received) (fewer : ∀ c ∈ queue', c ∈ queue) :
    receiver.Fits queue' received := by
  cases receiver with
  | polling => trivial
  | draining abort drained => exact ⟨fits.1, fits.2.1, fun c member => fits.2.2 c (fewer c member)⟩
  | putting abort drained =>
    obtain ⟨isAbort, latest, rfl⟩ := fits
    exact ⟨isAbort, latest, List.eq_nil_iff_forall_not_mem.mpr fun c member =>
      List.not_mem_nil (fewer c member)⟩
  | setting abort => exact fits
  | offering command => exact fits

theorem Orderly.next {s s' : Process} {e : ProcessLabel} (orderly : Orderly s)
    (moved : Process.Next settings py s e s') : Orderly s' := by
  obtain ⟨tail, numbered, receiver⟩ := orderly
  have removes {command : Command} {queue : List Command} (head : s.queue = command :: queue) :
      (∀ c ∈ queue.tail, c.cmd.isAbort = false) ∧ ∀ c ∈ queue, c ∈ s.queue := by
    rw [head] at tail ⊢
    exact ⟨fun c member => tail c (List.mem_of_mem_tail member), fun c => List.mem_cons_of_mem command⟩
  cases moved with
  | @receives frame cmd polling decoded =>
    refine ⟨tail, fun c member => Nat.lt_succ_of_lt (numbered c member), ?_⟩
    unfold Process.receive
    by_cases isAbort : cmd.isAbort = true
    · simp only [isAbort, if_true]
      exact ⟨isAbort, rfl, numbered⟩
    · simp only [isAbort]
      exact ⟨Bool.eq_false_iff.mpr isAbort, Nat.lt_succ_self _⟩
  | garbled => exact ⟨tail, numbered, receiver⟩
  | drains draining head =>
    obtain ⟨rest, kept⟩ := removes head
    rw [draining] at receiver
    refine ⟨rest, fun c member => numbered c (kept c member), ?_⟩
    exact ⟨receiver.1, receiver.2.1, fun c member => receiver.2.2 c (kept c member)⟩
  | drained draining empty =>
    rw [draining] at receiver
    exact ⟨tail, numbered, receiver.1, receiver.2.1, empty⟩
  | @puts abort drained putting room =>
    rw [putting] at receiver
    obtain ⟨isAbort, latest, empty⟩ := receiver
    simp only [empty, List.nil_append]
    refine ⟨by simp, ?_, isAbort, latest⟩
    intro c member
    obtain rfl := List.mem_singleton.mp member
    exact Nat.lt_of_lt_of_eq (Nat.lt_succ_self _) latest
  | full => exact ⟨tail, numbered, trivial⟩
  | sets => exact ⟨tail, numbered, trivial⟩
  | @offers command offering =>
    rw [offering] at receiver
    obtain ⟨plain, older⟩ := receiver
    by_cases room : s.queue.length < capacity
    · simp only [room, if_true]
      refine ⟨fun c member => ?_, fun c member => ?_, trivial⟩
      · cases queued : s.queue with
        | nil => simp [queued] at member
        | cons head rest =>
          simp only [queued, List.cons_append, List.tail_cons, List.mem_append,
            List.mem_singleton] at member
          rcases member with earlier | rfl
          · exact tail c (by simpa [queued] using earlier)
          · exact plain
      · rcases List.mem_append.mp member with earlier | last
        · exact numbered c earlier
        · obtain rfl := List.mem_singleton.mp last
          exact older
    · simp only [room, if_false]
      exact ⟨tail, numbered, trivial⟩
  | hearsScene => exact ⟨tail, numbered, receiver⟩
  | hearsTelemetry => exact ⟨tail, numbered, receiver⟩
  | stops => exact ⟨tail, numbered, receiver⟩
  | takes waiting running head =>
    obtain ⟨rest, kept⟩ := removes head
    exact ⟨rest, fun c member => numbered c (kept c member), receiver.fewer kept⟩
  | performs at_op effect =>
    obtain ⟨preempt, mission, rfl, -⟩ := performs_frame effect
    exact ⟨tail, numbered, receiver⟩
  | raises => exact ⟨tail, numbered, receiver⟩
  | finishes => exact ⟨tail, numbered, receiver⟩
  | returns => exact ⟨tail, numbered, receiver⟩

/-! ## The main thread -/

/-- Past the resets; the first operation may be a call that the event let pass. -/
def Proceeding (p : Code Unit) : Prop := Underway p ∧ ∃ cleared, Guarded cleared p

theorem proceeding_next {opens : (op : Op) → op.Answer → Bool} {op : Op} {next : op.Answer → Code Unit}
    (h : Until opens (.step op next) ∨ Proceeding (.step op next)) (r : op.Answer) :
    Until opens (next r) ∨ Proceeding (next r) := by
  rcases h with waits | ⟨underway, cleared, guarded⟩
  · rcases waits.next r with waits | ⟨-, underway, guarded⟩
    · exact .inl waits
    · exact .inr ⟨underway, false, guarded⟩
  · exact .inr ⟨underway.2 r, _, guarded.2 r⟩

def MainThread.Shaped : MainThread → Prop
  | .working command rest =>
    (Tests rest ∨ Proceeding rest) ∧ (Asks rest ∨ Proceeding rest) ∧
      (command.cmd.isAbort = true → Silent rest)
  | _ => True

theorem isAbort_of_flag {cmd : VoiceCommand} (flagged : cmd.isAbort = true) :
    settings.isAbort cmd = true := by
  simp [Settings.isAbort, flagged]

theorem Shaped.next {s s' : Process} {e : ProcessLabel} (shaped : s.main.Shaped)
    (moved : Process.Next settings py s e s') : s'.main.Shaped := by
  cases moved with
  | @takes command queue waiting running head =>
    obtain ⟨tests, asks⟩ := onCommand_until settings command.cmd
    exact ⟨.inl tests, .inl asks, fun flagged => (onCommand_abort settings (isAbort_of_flag flagged)).1⟩
  | @performs s'' command op next r at_op effect =>
    rw [at_op] at shaped
    obtain ⟨tests, asks, silent⟩ := shaped
    exact ⟨proceeding_next tests r, proceeding_next asks r, fun flagged => (silent flagged).2 r⟩
  | raises => trivial
  | finishes => trivial
  | returns => trivial
  | _ => exact shaped

/-! ## No abort is lost -/

def AbortReceived (py : Interpreter) (path : History) (n : Nat) : Prop :=
  ∃ t frame cmd, (t, ProcessLabel.receives frame) ∈ path ∧
    frame.bind (VoiceCommand.ofHeader py) = .ok cmd ∧ cmd.isAbort = true ∧ t.received = n

/-- The main thread has made the `abort` call for the abort of that number. -/
def Dispatched (path : History) (n : Nat) : Prop :=
  ∃ t tc result command rest, (t, ProcessLabel.performs (.dispatchToolCall tc) result) ∈ path ∧
    tc.name = "abort" ∧ t.main = .working command rest ∧ command.cmd.isAbort = true ∧
    command.number = n

def MainThread.Over : MainThread → Prop
  | .raised _ | .returned => True
  | _ => False

/-- The abort that the command thread is about to put. -/
def Receiver.inHand : Receiver → Option Command
  | .draining abort _ | .putting abort _ => some abort
  | _ => none

/-- Where a received abort is. -/
inductive Accounted (py : Interpreter) (path : History) (s : Process) (n : Nat) : Prop where
  | inHand {c : Command} (inHand : s.receiver.inHand = some c) (number : c.number = n)
  | queued {c : Command} (queued : c ∈ s.queue) (isAbort : c.cmd.isAbort = true)
      (number : c.number = n)
  | held {c : Command} {rest : Code Unit} (held : s.main = .working c rest)
      (isAbort : c.cmd.isAbort = true) (number : c.number = n) (reaches : Reaches rest)
  | dispatched (dispatched : Dispatched path n)
  | superseded {m : Nat} (later : n < m) (received : AbortReceived py path m)
  | isOver (isOver : s.main.Over)

variable {path later : History} {s s' : Process} {e : ProcessLabel} {n : Nat}

theorem AbortReceived.mono (received : AbortReceived py path n) :
    AbortReceived py (path ++ later) n := by
  obtain ⟨t, frame, cmd, member, facts⟩ := received
  exact ⟨t, frame, cmd, List.mem_append_left _ member, facts⟩

theorem Dispatched.mono (dispatched : Dispatched path n) : Dispatched (path ++ later) n := by
  obtain ⟨t, tc, result, command, rest, member, facts⟩ := dispatched
  exact ⟨t, tc, result, command, rest, List.mem_append_left _ member, facts⟩

theorem Over.next (isOver : s.main.Over) (moved : Process.Next settings py s e s') :
    s'.main.Over := by
  cases moved with
  | takes waiting => simp [waiting, MainThread.Over] at isOver
  | performs at_op => simp [at_op, MainThread.Over] at isOver
  | raises => trivial
  | finishes ended => simp [ended, MainThread.Over] at isOver
  | returns => trivial
  | _ => exact isOver

/-- An abort in hand is put into the queue. -/
theorem inHand_next (orderly : Orderly s) {c : Command} (inHand : s.receiver.inHand = some c)
    (moved : Process.Next settings py s e s') :
    s'.receiver.inHand = some c ∨ (c ∈ s'.queue ∧ c.cmd.isAbort = true) := by
  have fits := orderly.receiver
  cases moved with
  | receives polling | garbled polling => simp [polling, Receiver.inHand] at inHand
  | drains draining | drained draining => exact .inl (by rw [draining] at inHand; exact inHand)
  | puts putting room =>
    rw [putting] at inHand fits
    obtain rfl := Option.some.inj inHand
    exact .inr ⟨by simp, fits.1⟩
  | full putting full =>
    rw [putting] at fits
    simp [fits.2.2, capacity] at full
  | sets setting => simp [setting, Receiver.inHand] at inHand
  | offers offering => simp [offering, Receiver.inHand] at inHand
  | performs at_op effect =>
    obtain ⟨preempt, mission, rfl, -⟩ := performs_frame effect
    exact .inl inHand
  | _ => exact .inl inHand

/-- A command leaves the queue for the main thread, or because of an abort. -/
theorem queued_next {c : Command} (queued : c ∈ s.queue)
    (moved : Process.Next settings py s e s') :
    c ∈ s'.queue ∨ s'.main = .working c (onCommand settings c.cmd) ∨
      ∃ abort drained, s.receiver = .draining abort drained ∧
        s'.receiver = .draining abort (drained ++ [c]) := by
  cases moved with
  | @drains abort command drained queue draining head =>
    rw [head] at queued
    rcases List.mem_cons.mp queued with rfl | later
    · exact .inr (.inr ⟨abort, drained, draining, rfl⟩)
    · exact .inl later
  | puts => exact .inl (List.mem_append_left _ queued)
  | @offers command offering =>
    left
    change c ∈ if _ then _ else _
    split
    · exact List.mem_append_left _ queued
    · exact queued
  | @takes command queue waiting running head =>
    rw [head] at queued
    rcases List.mem_cons.mp queued with rfl | later
    · exact .inr (.inl rfl)
    · exact .inl later
  | performs at_op effect =>
    obtain ⟨preempt, mission, rfl, -⟩ := performs_frame effect
    exact .inl queued
  | _ => exact .inl queued

/-- An abort that the main thread holds is dispatched before it is finished. -/
theorem held_next {c : Command} {rest : Code Unit} (held : s.main = .working c rest)
    (isAbort : c.cmd.isAbort = true) (reaches : Reaches rest)
    (moved : Process.Next settings py s e s') :
    Dispatched (path ++ [(s, e)]) c.number ∨ s'.main.Over ∨
      ∃ rest', s'.main = .working c rest' ∧ Reaches rest' := by
  cases moved with
  | takes waiting => simp [held] at waiting
  | @performs s'' command op next r at_op effect =>
    obtain ⟨rfl, rfl⟩ := MainThread.working.inj (held.symm.trans at_op)
    rcases reaches with call | on
    · cases op with
      | dispatchToolCall tc =>
        have named : tc.name = "abort" := of_decide_eq_true call
        exact .inl ⟨s, tc, r, c, _, by simp, named, at_op, isAbort, rfl⟩
      | _ => cases call
    · exact .inr (.inr ⟨next r, rfl, on r⟩)
  | raises => exact .inr (.inl trivial)
  | finishes ended =>
    obtain ⟨rfl, rfl⟩ := MainThread.working.inj (held.symm.trans ended)
    cases reaches
  | returns => exact .inr (.inl trivial)
  | _ => exact .inr (.inr ⟨rest, held, reaches⟩)

/-- The abort in the command thread's hands, until its event is set. -/
def Receiver.abort? : Receiver → Option Command
  | .draining abort _ | .putting abort _ | .setting abort => some abort
  | _ => none

structure Custody (py : Interpreter) (path : History) (s : Process) : Prop where
  orderly : Orderly s
  shaped : s.main.Shaped
  known : ∀ c, s.receiver.abort? = some c → AbortReceived py path c.number
  counted : ∀ n, AbortReceived py path n → n < s.received
  accounted : ∀ n, AbortReceived py path n → Accounted py path s n

theorem Accounted.next (custody : Custody py path s) (accounted : Accounted py path s n)
    (moved : Process.Next settings py s e s') : Accounted py (path ++ [(s, e)]) s' n := by
  cases accounted with
  | inHand inHand number =>
    rcases inHand_next custody.orderly inHand moved with still | ⟨queued, isAbort⟩
    · exact .inHand still number
    · exact .queued queued isAbort number
  | @queued c queued isAbort number =>
    rcases queued_next queued moved with still | taken | ⟨abort, drained, draining, -⟩
    · exact .queued still isAbort number
    · exact .held taken isAbort number (onCommand_abort settings (isAbort_of_flag isAbort)).2
    · have fits := custody.orderly.receiver
      have known := custody.known abort (by rw [draining]; rfl)
      rw [draining] at fits
      exact .superseded (number ▸ fits.2.2 c queued) known.mono
  | held held isAbort number reaches =>
    rcases held_next held isAbort reaches moved with dispatched | isOver | ⟨rest, still, reaches⟩
    · exact .dispatched (number ▸ dispatched)
    · exact .isOver isOver
    · exact .held still isAbort number reaches
  | dispatched dispatched => exact .dispatched dispatched.mono
  | superseded later received => exact .superseded later received.mono
  | isOver isOver => exact .isOver (Over.next isOver moved)

/-- Which abort a step receives, if it receives one. -/
theorem received_next (received : AbortReceived py (path ++ [(s, e)]) n)
    (moved : Process.Next settings py s e s') : AbortReceived py path n ∨
      (s'.received = n + 1 ∧ ∃ c, s'.receiver = .draining c [] ∧ c.number = n) := by
  obtain ⟨t, frame, cmd, member, decoded, isAbort, number⟩ := received
  rcases List.mem_append.mp member with earlier | last
  · exact .inl ⟨t, frame, cmd, earlier, decoded, isAbort, number⟩
  · obtain ⟨rfl, rfl⟩ := Prod.mk.inj (List.mem_singleton.mp last)
    right
    cases moved with
    | receives polling decoded' =>
      obtain rfl := Except.ok.inj (decoded.symm.trans decoded')
      exact ⟨congrArg (· + 1) number, ⟨t.received, cmd⟩, by simp [Process.receive, isAbort], number⟩
    | garbled polling failed => simp [failed] at decoded

theorem received_le (moved : Process.Next settings py s e s') : s.received ≤ s'.received := by
  cases moved with
  | receives => exact Nat.le_succ _
  | performs at_op effect =>
    obtain ⟨preempt, mission, rfl, -⟩ := performs_frame effect
    exact Nat.le_refl _
  | _ => exact Nat.le_refl _

theorem known_next (known : ∀ c, s.receiver.abort? = some c → AbortReceived py path c.number)
    (moved : Process.Next settings py s e s') {c : Command} (inHand : s'.receiver.abort? = some c) :
    AbortReceived py (path ++ [(s, e)]) c.number := by
  cases moved with
  | @receives frame cmd polling decoded =>
    by_cases isAbort : cmd.isAbort = true
    · simp only [Process.receive, isAbort, if_true, Receiver.abort?, Option.some.injEq] at inHand
      obtain rfl := inHand
      exact ⟨s, frame, cmd, by simp, decoded, isAbort, rfl⟩
    · simp [Process.receive, isAbort, Receiver.abort?] at inHand
  | drains draining | drained draining =>
    obtain rfl := Option.some.inj inHand
    exact (known _ (by rw [draining]; rfl)).mono
  | puts putting =>
    obtain rfl := Option.some.inj inHand
    exact (known _ (by rw [putting]; rfl)).mono
  | full | sets | offers => cases inHand
  | performs at_op effect =>
    obtain ⟨preempt, mission, rfl, -⟩ := performs_frame effect
    exact (known c inHand).mono
  | _ => exact (known c inHand).mono

theorem Custody.next (custody : Custody py path s) (moved : Process.Next settings py s e s') :
    Custody py (path ++ [(s, e)]) s' where
  orderly := custody.orderly.next moved
  shaped := Shaped.next custody.shaped moved
  known _ inHand := known_next custody.known moved inHand
  counted n received := by
    rcases received_next received moved with earlier | ⟨latest, -⟩
    · exact Nat.lt_of_lt_of_le (custody.counted n earlier) (received_le moved)
    · omega
  accounted n received := by
    rcases received_next received moved with earlier | ⟨-, c, draining, number⟩
    · exact (custody.accounted n earlier).next custody moved
    · exact .inHand (by rw [draining]; rfl) number

theorem custody_run {s : Process} (run : Run (Process.Next settings py) {} path s) :
    Custody py path s := by
  refine run.invariant_history (I := Custody py) (fun _ _ => True)
    (fun custody _ moved => custody.next moved) ?_ fun _ _ _ _ => trivial
  constructor
  · exact ⟨by simp, by simp, trivial⟩
  · trivial
  · rintro c ⟨⟩
  · rintro n ⟨t, frame, cmd, member, -⟩
    cases member
  · rintro n ⟨t, frame, cmd, member, -⟩
    cases member

/-- Both threads are between commands and the queue is empty. -/
structure Quiescent (s : Process) : Prop where
  polling : s.receiver = .polling
  empty : s.queue = []
  waiting : s.main = .waiting

/-- Then the last abort received has been dispatched. -/
theorem Custody.dispatched (custody : Custody py path s) (quiescent : Quiescent s)
    (received : AbortReceived py path n) : ∃ m, n ≤ m ∧ Dispatched path m := by
  have bound := custody.counted n received
  obtain ⟨left, within⟩ : ∃ left, s.received = n + left := ⟨s.received - n, by omega⟩
  induction left using Nat.strongRecOn generalizing n with
  | ind left ih =>
    cases custody.accounted n received with
    | inHand inHand => simp [quiescent.polling, Receiver.inHand] at inHand
    | queued queued => simp [quiescent.empty] at queued
    | held held => simp [quiescent.waiting] at held
    | dispatched dispatched => exact ⟨n, Nat.le_refl n, dispatched⟩
    | @superseded m later received' =>
      have bound' := custody.counted m received'
      obtain ⟨k, above, dispatched⟩ :=
        ih (s.received - m) (by omega) received' bound' (by omega)
      exact ⟨k, by omega, dispatched⟩
    | isOver isOver => simp [quiescent.waiting, MainThread.Over] at isOver

end Lexaire.Orchestrator
