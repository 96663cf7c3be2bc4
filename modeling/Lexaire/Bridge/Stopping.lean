import Lexaire.Bridge.Discipline
import Mathlib.Data.Fintype.OfMap

/-! The bridge process after SIGINT or SIGTERM. -/
namespace Lexaire.Bridge
open Atomic Transition RunOp

/-- The stop flag, and what is done for the outside: a request taken, a command of the
watchdog, a frame published. -/
def stopFlag : Signal RunOp RunOp.Answer where
  heeds
    | .stopRequested, r => r = true
    | _, _ => True
  costs
    | .receive _, some _ => 1
    | .watch op, _ => if op.isCommand then 1 else 0
    | .publish _ _, _ => 1
    | _, _ => 0

def RunBlock.rank : RunBlock → Nat
  | .setUp => 2
  | .turn _ _ | .heartbeatStart | .teleStart => 1
  | _ => 0

/-- The blocks that come after a block that the signal has overtaken. -/
def Lower (height : Nat) (next : Option RunBlock) : Prop := ∀ b ∈ next, b.rank < height

/-- The same flag when it is not looked at. -/
abbrev Unheeded {α : Type} (post : α → Prop) (n : Nat) (p : RunCode Empty α) : Prop :=
  p.Spends { stopFlag with heeds := fun _ _ => True } post n

section
variable {α : Type} {post : α → Prop} {n : Nat} {o : RunOp} {f : o.Answer → RunCode Empty α}

theorem unheeded_call (nothing : ∀ r, stopFlag.costs o r = 0) (rest : ∀ r, Unheeded post n (f r)) :
    Unheeded post n (call o >>= f) :=
  .free_step nothing fun r _ => rest r

/-- An operation whose price depends on its answer. -/
theorem unheeded_paid (rest : ∀ r, stopFlag.costs o r ≤ n ∧
    Unheeded post (n - stopFlag.costs o r) (f r)) : Unheeded post n (call o >>= f) :=
  fun r _ => rest r

theorem quiet_free {op : RunOp} (r : op.Answer) (quiet : op.quiet = true) : stopFlag.costs op r = 0 := by
  cases op with
  | stopRequested | connect | hasAutopilot | serve => rfl
  | _ => cases quiet

theorem unheeded_quiet {β : Type} {p : RunCode Empty β} {f : β → RunCode Empty α}
    (quiet : p.All (·.quiet = true)) (rest : ∀ b, Unheeded post n (f b)) :
    Unheeded post n (p >>= f) := by
  have free : Unheeded (fun _ => True) 0 p := .free quiet fun _ r quiet => quiet_free r quiet
  exact free.seq fun b _ => rest b

theorem giveUp_free (rep pub : Nat) : Unheeded (Lower 2) 0 (giveUp rep pub) := by
  repeat refine unheeded_call (fun _ => rfl) fun _ => ?_
  rintro _ ⟨⟩

theorem bindBoth_free (rep pub : Nat) : Unheeded (Lower 2) 0 (bindBoth rep pub) := by
  refine unheeded_call (fun _ => rfl) fun _ => unheeded_call (fun _ => rfl) fun _ => ?_
  refine unheeded_call (o := .bind rep) (fun _ => rfl) fun bound => ?_
  cases bound with
  | false => exact giveUp_free rep pub
  | true =>
    refine unheeded_call (o := .bind pub) (fun _ => rfl) fun bound => ?_
    cases bound with
    | false => exact giveUp_free rep pub
    | true =>
      refine unheeded_call (fun _ => rfl) fun _ => unheeded_call (fun _ => rfl) fun _ => ?_
      rintro _ ⟨⟩
      exact Nat.lt_succ_self 1

theorem setUp_free : Unheeded (Lower 2) 0 setUp := by
  have returned : Unheeded (Lower 2) 0 (.done none) := by
    rintro _ ⟨⟩
  refine unheeded_call (o := .connect) (fun _ => rfl) fun connected => ?_
  cases connected with
  | false => exact returned
  | true =>
    refine unheeded_quiet (awaitAutopilot_quiet 50) fun found => ?_
    cases found with
    | false => exact returned
    | true =>
      refine unheeded_call (o := .ctxNew) (fun _ => rfl) fun created => ?_
      cases created with
      | false => exact returned
      | true =>
        refine unheeded_call (o := .newSocket .rep) (fun _ => rfl) fun rep => ?_
        refine unheeded_call (o := .newSocket .pub) (fun _ => rfl) fun pub => ?_
        cases rep with
        | none =>
          cases pub with
          | none => exact unheeded_call (fun _ => rfl) fun _ => returned
          | some pub =>
            exact unheeded_call (o := .close pub) (fun _ => rfl) fun _ =>
              unheeded_call (o := .ctxDestroy) (fun _ => rfl) fun _ => returned
        | some rep =>
          cases pub with
          | none =>
            exact unheeded_call (o := .close rep) (fun _ => rfl) fun _ =>
              unheeded_call (o := .ctxDestroy) (fun _ => rfl) fun _ => returned
          | some pub => exact bindBoth_free rep pub

theorem tearDown_free (rep : Option Nat) (pub : Nat) : Unheeded (Lower 0) 0 (tearDown rep pub) := by
  have closes : Unheeded (Lower 0) 0 (do call (.close pub); let _ ← call .ctxDestroy; return none) := by
    refine unheeded_call (fun _ => rfl) fun _ => unheeded_call (fun _ => rfl) fun _ => ?_
    rintro _ ⟨⟩
  refine unheeded_call (fun _ => rfl) fun _ => unheeded_call (fun _ => rfl) fun _ => ?_
  refine unheeded_call (fun _ => rfl) fun _ => ?_
  cases rep with
  | none => exact closes
  | some rep => exact unheeded_call (o := .close rep) (fun _ => rfl) fun _ => closes

theorem leave_free (t : Helper) : Unheeded (Lower 0) 0 (leave t) := by
  refine unheeded_call (fun _ => rfl) fun _ => ?_
  rintro _ ⟨⟩

end

/-! ## Blocks that ask for the flag -/

section
/-- The flag is tested first; what is done when it is set costs nothing. -/
theorem asks_first {height : Nat} {f : Bool → RunCode Empty (Option RunBlock)}
    (stopped : Unheeded (Lower height) 0 (f true)) :
    (call .stopRequested >>= f).Spends stopFlag (Lower height) 0 := by
  refine .free_step (fun _ => rfl) fun r heeded => ?_
  obtain rfl : r = true := heeded
  exact .of_unheeded stopped

theorem prudent_first {f : Bool → RunCode Empty (Option RunBlock)} {post : Option RunBlock → Prop}
    (stopped : Unheeded post 1 (f true)) (running : (f false).Prudent stopFlag 1) :
    (call .stopRequested >>= f).Prudent stopFlag 1 := by
  refine .free_step (fun _ => rfl) fun r => ?_
  cases r with
  | true => exact .of_unheeded stopped
  | false => exact running

theorem done_unheeded (next : Option RunBlock) (n : Nat) : Unheeded (fun _ => True) n (.done next) :=
  trivial

theorem prudent_unheeded {n : Nat} {p : RunCode Empty (Option RunBlock)}
    (spends : Unheeded (fun _ => True) n p) : p.Prudent stopFlag n :=
  .of_unheeded spends

theorem turnOnce_asks (cfg : Settings) (rep pub : Nat) :
    (turnOnce cfg rep pub).Spends stopFlag (Lower 1) 0 := by
  refine asks_first ?_
  rintro _ ⟨⟩
  exact Nat.zero_lt_one

theorem turnOnce_prudent (cfg : Settings) (rep pub : Nat) :
    (turnOnce cfg rep pub).Prudent stopFlag 1 := by
  refine prudent_first (done_unheeded _ 1) (prudent_unheeded ?_)
  refine unheeded_call (o := .poll rep) (fun _ => rfl) fun readable => ?_
  cases readable with
  | false => exact done_unheeded _ 1
  | true =>
    refine unheeded_paid (o := .receive rep) fun r => ?_
    cases r with
    | none => exact ⟨Nat.zero_le 1, done_unheeded _ _⟩
    | some parsed =>
      refine ⟨le_refl 1, ?_⟩
      refine unheeded_quiet (recover_all within_quiet) fun result => ?_
      refine unheeded_call (o := .sendReply rep _) (fun _ => rfl) fun sent => ?_
      cases sent with
      | true => exact done_unheeded _ _
      | false =>
        refine unheeded_call (o := .close rep) (fun _ => rfl) fun _ => ?_
        refine unheeded_call (o := .newSocket .rep) (fun _ => rfl) fun rebuilt => ?_
        cases rebuilt with
        | none => exact done_unheeded _ _
        | some rep =>
          refine unheeded_call (o := .setLinger rep) (fun _ => rfl) fun _ => ?_
          refine unheeded_call (o := .bind rep) (fun _ => rfl) fun bound => ?_
          cases bound <;> exact done_unheeded _ _

theorem teleRound_asks (unspecified : Int32) (pub : Nat) :
    (teleRound unspecified pub).Spends stopFlag (Lower 0) 0 :=
  asks_first (leave_free .tele)

theorem teleRound_prudent (unspecified : Int32) (pub : Nat) :
    (teleRound unspecified pub).Prudent stopFlag 1 := by
  have leaves := (leave_free .tele).mono (Nat.zero_le 1)
  refine prudent_first leaves (.free_step (fun _ => rfl) fun readings => ?_)
  refine prudent_first leaves (prudent_unheeded ?_)
  exact unheeded_paid fun _ => ⟨le_refl 1, done_unheeded _ _⟩

/-- The commands that code of the bridge gives. -/
def commands : Signal Op Op.Answer where
  heeds _ _ := True
  costs op _ := if op.isCommand then 1 else 0

theorem within_watch_spends {α : Type} {p : Code α} {n : Nat} (spends : p.Spends commands (fun _ => True) n)
    (f : String → α) : Unheeded (fun _ => True) n ((within .watch (fun _ => rfl) p).recover f) := by
  induction p generalizing n with
  | done a => trivial
  | raise e => trivial
  | step op next ih => exact fun r _ => ⟨(spends r trivial).1, ih r (spends r trivial).2⟩

theorem disconnectedSince_free (disconnectAt : Option Nat) :
    (disconnectedSince disconnectAt).All (·.isCommand = false) := by
  cases disconnectAt with
  | none => exact ⟨rfl, fun _ => trivial⟩
  | some since => trivial

/-- One pass of the watchdog gives one command at most. -/
theorem heartbeatPoll_spends (cfg : Settings) (w : Watch) :
    (heartbeatPoll cfg w).Spends commands (fun _ => True) 1 := by
  refine .free_step (fun _ => rfl) fun connected _ => ?_
  cases connected with
  | true => trivial
  | false =>
    have since := Program.Spends.free (g := commands) (disconnectedSince_free w.disconnectAt)
      fun op _ free => by simp [commands, free]
    refine since.seq fun since _ => .free_step (fun _ => rfl) fun now _ => ?_
    change Program.Spends _ _ _ (if _ then _ else _)
    split
    · trivial
    · refine .free_step (fun _ => rfl) fun armed _ => ?_
      cases armed with
      | false => trivial
      | true => exact fun _ _ => ⟨le_refl 1, trivial⟩

theorem heartbeatRound_asks (cfg : Settings) (w : Watch) :
    (heartbeatRound cfg w).Spends stopFlag (Lower 0) 0 :=
  asks_first (leave_free .heartbeat)

theorem heartbeatRound_prudent (cfg : Settings) (w : Watch) :
    (heartbeatRound cfg w).Prudent stopFlag 1 := by
  refine prudent_first ((leave_free .heartbeat).mono (Nat.zero_le 1)) (prudent_unheeded ?_)
  exact (within_watch_spends (heartbeatPoll_spends cfg w) _).bind fun w _ => done_unheeded _ 0

end

/-! ## The process -/

section
variable {cfg : Settings} {unspecified : Int32}

theorem performs_stop {op : RunOp} {s s' : Resources} {r : op.Answer} (stopped : s.stop = true)
    (effect : op.performs s r s') : s'.stop = true := by
  obtain ⟨-, rfl⟩ := effect
  cases op with
  | setStop => rfl
  | newSocket | receive | ctxNew | bind | sendReply | ctxDestroy => cases r <;> exact stopped
  | _ => exact stopped

theorem performs_heeds {op : RunOp} {s s' : Resources} {r : op.Answer} (stopped : s.stop = true)
    (effect : op.performs s r s') : stopFlag.heeds op r := by
  cases op with
  | stopRequested => exact (eq_of_beq effect.1).trans stopped
  | _ => trivial

theorem stopFlag_heeded : (process cfg unspecified).Heeded stopFlag (·.stop = true) RunBlock.rank 1 where
  stays _ _ _ _ stopped effect := performs_stop stopped effect
  drifts _ _ _ moved := by
    obtain rfl := moved
    rfl
  answers _ _ _ _ stopped effect := performs_heeds stopped effect
  asks b := by
    cases b with
    | setUp => exact .of_unheeded setUp_free
    | turn rep pub => exact turnOnce_asks cfg rep pub
    | tearDown rep pub => exact .of_unheeded (tearDown_free rep pub)
    | heartbeatStart =>
      refine .free_step (fun _ => rfl) fun pub _ => ?_
      rintro _ ⟨⟩
      exact Nat.zero_lt_one
    | heartbeat w => exact heartbeatRound_asks cfg w
    | teleStart =>
      refine .free_step (fun _ => rfl) fun pub _ => ?_
      rintro _ ⟨⟩
      exact Nat.zero_lt_one
    | tele pub => exact teleRound_asks unspecified pub
  prudent b := by
    cases b with
    | setUp => exact (Program.Prudent.of_unheeded setUp_free).mono (Nat.zero_le 1)
    | turn rep pub => exact turnOnce_prudent cfg rep pub
    | tearDown rep pub => exact (Program.Prudent.of_unheeded (tearDown_free rep pub)).mono (Nat.zero_le 1)
    | heartbeatStart | teleStart => exact .free_step (fun _ => rfl) fun _ => trivial
    | heartbeat w => exact heartbeatRound_prudent cfg w
    | tele pub => exact teleRound_prudent unspecified pub

/-- Only a join and the wait for a start can block. -/
theorem performs_total {op : RunOp} (s : Resources) (join : ∀ t, op ≠ .join t)
    (begins : ∀ t, op ≠ .begins t) : ∃ r s', op.performs s r s' := by
  cases op with
  | join t => exact absurd rfl (join t)
  | begins t => exact absurd rfl (begins t)
  | stopRequested => exact ⟨s.stop, _, beq_self_eq_true s.stop, rfl⟩
  | newSocket | receive => exact ⟨none, _, rfl, rfl⟩
  | connect | hasAutopilot | ctxNew | bind | poll | sendReply | ctxDestroy => exact ⟨true, _, rfl, rfl⟩
  | serve op | watch op => exact ⟨(Outside.nominal.answer op {}).1, _, rfl, rfl⟩
  | read => exact ⟨default, _, rfl, rfl⟩
  | _ => exact ⟨(), _, rfl, rfl⟩

variable {m : ProcessState} {i : RunThread}

theorem steps_on {op : RunOp} {next : op.Answer → RunCode Empty (Option RunBlock)}
    (at_op : m.thread i = some (.step op next)) (can : ∃ r s', op.performs m.shared r s') :
    ∃ e m', Crew.Next (process cfg unspecified) m e m' ∧ e.thread? ≠ none := by
  obtain ⟨r, s', effect⟩ := can
  exact ⟨_, _, .performs (w := process cfg unspecified) at_op effect, by simp [Crew.Label.thread?]⟩

theorem block_ends {next : Option RunBlock} (ended : m.thread i = some (.done next)) :
    ∃ e m', Crew.Next (process cfg unspecified) m e m' ∧ e.thread? ≠ none := by
  cases next with
  | none => exact ⟨_, _, .ends ended, by simp [Crew.Label.thread?]⟩
  | some b => exact ⟨_, _, .goes ended, by simp [Crew.Label.thread?]⟩

theorem helper_goes_on {t : Helper} {pub : Nat}
    (stands : discipline.Stands (process cfg unspecified) m (.helper t))
    (started : m.shared.helper t = .started pub) :
    ∃ e m', Crew.Next (process cfg unspecified) m e m' ∧ e.thread? ≠ none := by
  cases code : m.thread (.helper t) with
  | none =>
    simp only [Crew.Contract.Stands, code] at stands
    have ended : Over t m.shared := stands
    rcases ended with ended | ended <;> rw [started] at ended <;> cases ended
  | some p =>
    cases p with
    | done next => exact block_ends code
    | raise e => exact e.elim
    | step op next =>
      have now : Helps cfg unspecified t (.step op next) m.shared := by
        simpa only [Crew.Contract.Stands, code] using stands
      obtain ⟨owns, -⟩ := now.now_good
      refine steps_on code ?_
      cases op with
      | begins t' =>
        obtain rfl : t' = t := owns
        exact ⟨pub, _, beq_iff_eq.mpr started, rfl⟩
      | join t' => exact owns.elim
      | _ => exact performs_total m.shared (by simp) (by simp)

/-- While `run()` has not returned some thread can go on: the main thread itself, or the thread
that it waits for. -/
theorem goes_on (stands : ∀ i, discipline.Stands (process cfg unspecified) m i)
    (running : m.thread .main ≠ none) :
    ∃ e m', Crew.Next (process cfg unspecified) m e m' ∧ e.thread? ≠ none := by
  cases code : m.thread .main with
  | none => exact absurd code running
  | some p =>
    cases p with
    | done next => exact block_ends code
    | raise e => exact e.elim
    | step op next =>
      have now : Keeps cfg unspecified (.step op next) m.shared := by
        simpa only [Crew.Contract.Stands, code] using stands .main
      obtain ⟨owns, proper⟩ := now.now_good
      cases op with
      | begins t => exact owns.elim
      | join t =>
        cases phase : m.shared.helper t with
        | idle => exact absurd phase proper.1
        | joined => exact absurd phase proper.2
        | returned => exact steps_on code ⟨(), _, beq_iff_eq.mpr phase, rfl⟩
        | started pub => exact helper_goes_on (stands (.helper t)) phase
      | _ => exact steps_on code (performs_total m.shared (by simp) (by simp))

instance : Fintype RunThread :=
  Fintype.ofList [.main, .helper .heartbeat, .helper .tele] fun i => by
    cases i with
    | main => simp
    | helper t => cases t <;> simp

theorem start_prudent (i : RunThread) : ∀ p ∈ (ProcessState.start cfg unspecified).thread i,
    p.Prudent stopFlag 1 := by
  rintro _ ⟨⟩
  exact stopFlag_heeded.prudent i.first

theorem endless_stands {state : Nat → ProcessState} {label : Nat → Crew.Label RunThread RunBlock RunOp.Answer}
    (endless : Crew.Endless (process cfg unspecified) state label)
    (stands : ∀ i, discipline.Stands (process cfg unspecified) (state 0) i) (k : Nat) :
    ∀ i, discipline.Stands (process cfg unspecified) (state k) i := by
  induction k with
  | zero => exact stands
  | succ k ih => exact (discipline_kept cfg unspecified).next ih (endless.next k)

/-- Once the stop flag is set each thread takes one more request, gives one more command or
publishes one more frame at most; and while the threads go on as long as one can, the
bridge comes to the end of `run()` with everything released, save a context that cannot be
destroyed. -/
theorem stop_completes {t : ProcessState} {before after : ProcessHistory}
    (first : Run (Crew.Next (process cfg unspecified)) (ProcessState.start cfg unspecified) before t)
    (rest : Run (Crew.Next (process cfg unspecified)) t after m) (stopped : t.shared.stop = true) :
    (∀ i, Crew.cost stopFlag i after ≤ 1) ∧
      ∀ state label, Crew.Progressing (process cfg unspecified) state label → state 0 = t →
        ∃ K, (state K).thread .main = none ∧ Released (state K).shared := by
  refine ⟨fun i => stopFlag_heeded.run start_prudent first rest stopped i, ?_⟩
  rintro state label progressing rfl
  have kept := discipline_kept cfg unspecified
  have stands := endless_stands progressing.toEndless (kept.run first (start_stands cfg unspecified)).1
  obtain ⟨K, still⟩ := stopFlag_heeded.completes progressing stopped
  have ended : (state K).thread .main = none := by
    by_contra running
    obtain ⟨e, m', moved, own⟩ := goes_on (stands K) running
    exact own (still e m' moved)
  have main := stands K .main
  rw [Crew.Contract.Stands, ended] at main
  exact ⟨K, ended, main⟩

/-- The main thread has found a request when the signal comes. -/
def signalled : List (Crew.Label RunThread RunBlock RunOp.Answer) := [
  .performs .main ⟨.connect, true⟩,
  .performs .main ⟨.stopRequested, false⟩,
  .performs .main ⟨.hasAutopilot, true⟩,
  .performs .main ⟨.ctxNew, true⟩,
  .performs .main ⟨.newSocket .rep, some 0⟩,
  .performs .main ⟨.newSocket .pub, some 1⟩,
  .performs .main ⟨.setLinger 0, ()⟩,
  .performs .main ⟨.setLinger 1, ()⟩,
  .performs .main ⟨.bind 0, true⟩,
  .performs .main ⟨.bind 1, true⟩,
  .performs .main ⟨.start .heartbeat 1, ()⟩,
  .performs .main ⟨.start .tele 1, ()⟩,
  .goes .main (.turn 0 1),
  .performs .main ⟨.stopRequested, false⟩,
  .performs .main ⟨.poll 0, true⟩,
  .drifts]

/-- It still takes that request. -/
theorem stop_completes_late : ∃ before t after m,
    Run (Crew.Next (process {} 0)) (ProcessState.start {} 0) before t ∧
    Run (Crew.Next (process {} 0)) t after m ∧ t.shared.stop = true ∧
    after.map Prod.snd = [.performs .main ⟨.receive 0, some (.failed "" true)⟩] ∧
    Crew.cost stopFlag .main after = 1 ∧
    ∀ state label, Crew.Progressing (process {} 0) state label → state 0 = t →
      ∃ K, (state K).thread .main = none ∧ Released (state K).shared := by
  let late : Crew.Label RunThread RunBlock RunOp.Answer :=
    .performs .main ⟨.receive 0, some (.failed "" true)⟩
  have checked : (replay (processStep? {} 0) (ProcessState.start {} 0) signalled).any
      (fun first => first.2.shared.stop && (processStep? {} 0 first.2 late).isSome) = true := by
    decide +kernel
  obtain ⟨⟨before, t⟩, played, seen⟩ := (Option.any_eq_true _ _).mp checked
  obtain ⟨stopped, taken⟩ := Bool.and_eq_true_iff.mp seen
  obtain ⟨m, moved⟩ := Option.isSome_iff_exists.mp taken
  have first := Run.of_replay processStep?_sound played
  have rest : Run (Crew.Next (process {} 0)) t [(t, late)] m := .single (processStep?_sound moved)
  exact ⟨before, t, [(t, late)], m, first, rest, stopped, rfl, rfl,
    (stop_completes first rest stopped).2⟩

end

end Lexaire.Bridge
