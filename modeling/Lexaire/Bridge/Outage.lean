import Lexaire.Bridge.Watchdog

/-! The heartbeat watchdog over any sequence of passes. An outage is a run of passes that
find the link down; the watchdog carries its beginning, and whether its one decision has
been made, from pass to pass. -/
namespace Lexaire.Bridge
open Atomic

/-- What one pass of the loop finds, with one reading of the clock. -/
structure Sample where
  outside : Outside
  latches : SafetyState

namespace Sample

def connected (sample : Sample) : Bool := sample.outside.isConnected
def clock (sample : Sample) : Nat := sample.outside.clockNow
def armedWithVoice (sample : Sample) : Bool := sample.latches.armedWithVoice

end Sample

/-- The commands of one pass, and what it hands to the next. -/
def poll (cfg : Settings) (w : Watch) (sample : Sample) : List Op × Watch :=
  let ran := (heartbeatPoll cfg w).run sample.outside.answer sample.latches
  (ran.performed.filter (·.isCommand), ran.result.toOption.getD w)

/-- The commands of every pass. -/
def watch (cfg : Settings) : Watch → List Sample → List (List Op)
  | _, [] => []
  | w, sample :: rest => (poll cfg w sample).1 :: watch cfg (poll cfg w sample).2 rest

/-- The watchdog's memory after them. -/
def watched (cfg : Settings) (w : Watch) (samples : List Sample) : Watch :=
  samples.foldl (fun w sample => (poll cfg w sample).2) w

/-- The age that the link has been down for is not below the threshold. -/
def Overdue (cfg : Settings) (since : Nat) (sample : Sample) : Prop :=
  ¬ ageS sample.clock since < cfg.hbThresholdS

instance (cfg : Settings) (since : Nat) (sample : Sample) : Decidable (Overdue cfg since sample) :=
  inferInstanceAs (Decidable (¬ _))

theorem ageS_isNaN (now since : Nat) : (ageS now since).isNaN = false :=
  Double.div_isNaN (Double.ofInt_isNaN _) (by decide +kernel) (by decide +kernel)

/-- Every age reaches a threshold that is not a number. -/
theorem overdue_iff {cfg : Settings} {since : Nat} {sample : Sample} :
    Overdue cfg since sample ↔
      cfg.hbThresholdS ≤ ageS sample.clock since ∨ cfg.hbThresholdS.isNaN = true := by
  unfold Overdue
  cases threshold : cfg.hbThresholdS.isNaN with
  | true => simp [Double.not_lt_isNaN threshold]
  | false => simp [Double.not_lt_iff threshold (ageS_isNaN _ _)]

theorem poll_connected {cfg : Settings} {w : Watch} {sample : Sample}
    (connected : sample.connected = true) : poll cfg w sample = ([], {}) := by
  have up : sample.outside.isConnected = true := connected
  simp [poll, heartbeatPoll, up, Op.isCommand, Except.toOption]

/-- One pass with the link down: it acts when the outage is overdue for the first time and
the session is armed, and has decided from then on. -/
theorem poll_disconnected {cfg : Settings} {w : Watch} {sample : Sample}
    (down : sample.connected = false) : poll cfg w sample =
      (if Overdue cfg (w.disconnectAt.getD sample.clock) sample ∧ w.actionFired = false ∧
          sample.armedWithVoice = true then [.action (lossCommand cfg.hbAction)] else [],
        { disconnectAt := some (w.disconnectAt.getD sample.clock)
          actionFired := w.actionFired || decide (Overdue cfg (w.disconnectAt.getD sample.clock) sample) }) := by
  obtain ⟨disconnectAt, fired⟩ := w
  obtain ⟨o, aborted, armed⟩ := sample
  have lost : o.isConnected = false := down
  cases disconnectAt with
  | none =>
    by_cases recent : ageS o.clockNow o.clockNow < cfg.hbThresholdS <;> cases fired <;> cases armed <;>
      simp [poll, heartbeatPoll, disconnectedSince, Overdue, Sample.clock, Sample.armedWithVoice, lost,
        recent, Op.isCommand, Except.toOption]
  | some since =>
    by_cases recent : ageS o.clockNow since < cfg.hbThresholdS <;> cases fired <;> cases armed <;>
      simp [poll, heartbeatPoll, disconnectedSince, Overdue, Sample.clock, Sample.armedWithVoice, lost,
        recent, Op.isCommand, Except.toOption]

/-- An outage begins with its first sample. -/
theorem poll_begins {cfg : Settings} {first : Sample} (down : first.connected = false) :
    poll cfg {} first = poll cfg { disconnectAt := some first.clock } first := by
  rw [poll_disconnected down, poll_disconnected down]
  rfl

section
variable {cfg : Settings} {w : Watch}

@[simp] theorem length_watch (samples : List Sample) :
    (watch cfg w samples).length = samples.length := by
  induction samples generalizing w with
  | nil => rfl
  | cons sample rest ih => simp [watch, ih]

theorem watch_append (first second : List Sample) :
    watch cfg w (first ++ second) = watch cfg w first ++ watch cfg (watched cfg w first) second := by
  induction first generalizing w with
  | nil => rfl
  | cons sample rest ih => simp [watch, watched, ih]

/-- The samples before an outage end with the link up, if there are any. -/
def Begins (before : List Sample) : Prop :=
  ∀ sample, before.getLast? = some sample → sample.connected = true

theorem watched_begins {before : List Sample} (begins : Begins before) : watched cfg {} before = {} := by
  rcases List.eq_nil_or_concat before with rfl | ⟨earlier, last, rfl⟩
  · rfl
  · have connected := begins last (by simp)
    simp [watched, poll_connected connected]

theorem watch_connected {samples : List Sample} {i : Nat} {sample : Sample}
    (here : samples[i]? = some sample) (connected : sample.connected = true) :
    (watch cfg w samples)[i]? = some [] := by
  induction samples generalizing w i with
  | nil => cases here
  | cons first rest ih =>
    cases i with
    | zero =>
      obtain rfl := Option.some.inj here
      simp [watch, poll_connected connected]
    | succ i => exact ih here

/-- An outage that begins counts from its first sample. -/
theorem watch_begins {first : Sample} {rest : List Sample} (lost : first.connected = false) :
    watch cfg {} (first :: rest) = watch cfg ⟨some first.clock, false⟩ (first :: rest) := by
  simp only [watch, poll_begins lost]

/-- Once the decision has been made, nothing more; before it, the first overdue sample. -/
theorem watch_outage {since : Nat} {fired : Bool} {outage : List Sample}
    (down : ∀ sample ∈ outage, sample.connected = false) {i : Nat} {sample : Sample}
    (here : outage[i]? = some sample) :
    (watch cfg ⟨some since, fired⟩ outage)[i]? = some
      (if Overdue cfg since sample ∧ (∀ earlier ∈ outage.take i, ¬ Overdue cfg since earlier) ∧
          fired = false ∧ sample.armedWithVoice = true
        then [.action (lossCommand cfg.hbAction)] else []) := by
  induction outage generalizing fired i with
  | nil => cases here
  | cons first rest ih =>
    have lost := down first (by simp)
    cases i with
    | zero =>
      obtain rfl := Option.some.inj here
      simp [watch, poll_disconnected lost]
    | succ i =>
      simp only [watch, List.getElem?_cons_succ, poll_disconnected lost, Option.getD_some]
      rw [ih (fun sample member => down sample (by simp [member])) here]
      by_cases overdue : Overdue cfg since first <;> simp [overdue]

theorem length_watch_outage {since : Nat} {fired : Bool} {outage : List Sample}
    (down : ∀ sample ∈ outage, sample.connected = false) :
    (watch cfg ⟨some since, fired⟩ outage).flatten.length ≤ (!fired).toNat := by
  induction outage generalizing fired with
  | nil => simp [watch]
  | cons first rest ih =>
    have lost := down first (by simp)
    have later : (watch cfg ⟨some since, fired || decide (Overdue cfg since first)⟩ rest).flatten.length ≤
        (!(fired || decide (Overdue cfg since first))).toNat :=
      ih fun sample member => down sample (by simp [member])
    simp only [watch, poll_disconnected lost, Option.getD_some, List.flatten_cons, List.length_append]
    by_cases acts : Overdue cfg since first ∧ fired = false ∧ first.armedWithVoice = true
    · obtain ⟨overdue, undecided, -⟩ := id acts
      rw [if_pos acts, List.length_singleton]
      simp only [overdue, decide_true, Bool.or_true, Bool.not_true, Bool.toNat_false] at later ⊢
      simp only [undecided, Bool.not_false, Bool.toNat_true]
      omega
    · rw [if_neg acts, List.length_nil, Nat.zero_add]
      apply Nat.le_trans later
      cases fired
      · exact Bool.toNat_le _
      · simp

end

/-- The commands of the passes of an outage. -/
def duringOutage (cfg : Settings) (before outage after : List Sample) : List (List Op) :=
  ((watch cfg {} (before ++ outage ++ after)).drop before.length).take outage.length

/-- Whatever came before the outage or follows it, its commands are its own. -/
theorem duringOutage_eq {cfg : Settings} {before outage : List Sample} (begins : Begins before)
    (after : List Sample) : duringOutage cfg before outage after = watch cfg {} outage := by
  simp [duringOutage, List.append_assoc, watch_append, watched_begins begins]

/-- The sample's age reaches the threshold, as every age does when that is not a number. -/
def Reaches (cfg : Settings) (first sample : Sample) : Prop :=
  cfg.hbThresholdS ≤ ageS sample.clock first.clock ∨ cfg.hbThresholdS.isNaN = true

instance (cfg : Settings) (first sample : Sample) : Decidable (Reaches cfg first sample) :=
  inferInstanceAs (Decidable (_ ∨ _))

/-- The watchdog commands nothing while connected. In an outage it issues at most one
command, the configured one, at the first sample whose age reaches the threshold and
exactly when the session is armed there; and an outage's commands depend on nothing
outside it. -/
theorem watchdog_exact (cfg : Settings) (samples : List Sample) :
    (∀ (i : Nat) (sample : Sample), samples[i]? = some sample → sample.connected = true →
      (watch cfg {} samples)[i]? = some []) ∧
    ∀ before outage after, samples = before ++ outage ++ after → Begins before →
      (∀ sample ∈ outage, sample.connected = false) →
      duringOutage cfg before outage after = duringOutage cfg [] outage [] ∧
      (duringOutage cfg before outage after).flatten.length ≤ 1 ∧
      ∀ first (i : Nat) (sample : Sample), outage.head? = some first → outage[i]? = some sample →
        (duringOutage cfg before outage after)[i]? = some
          (if Reaches cfg first sample ∧ (∀ earlier ∈ outage.take i, ¬ Reaches cfg first earlier) ∧
              sample.armedWithVoice = true
            then [.action (lossCommand cfg.hbAction)] else []) := by
  refine ⟨fun i sample here connected => watch_connected here connected, ?_⟩
  rintro before outage after rfl begins down
  have silent : Begins [] := by simp [Begins]
  rw [duringOutage_eq begins, duringOutage_eq silent]
  refine ⟨rfl, ?_, ?_⟩
  · cases outage with
    | nil => simp [watch]
    | cons first rest =>
      rw [watch_begins (down first (by simp))]
      exact length_watch_outage down
  · intro first i sample head here
    cases outage with
    | nil => cases head
    | cons first' rest =>
      obtain rfl := Option.some.inj head
      rw [watch_begins (down first' (by simp)), watch_outage down here]
      simp [Reaches, overdue_iff]

/-- An outage of two seconds in an armed session, after one second with the link up. -/
def lostLink : List Sample :=
  [⟨.nominal, { armedWithVoice := true }⟩,
    ⟨{ Outside.nominal with isConnected := false, clockNow := 1000000000 }, { armedWithVoice := true }⟩,
    ⟨{ Outside.nominal with isConnected := false, clockNow := 3000000000 }, { armedWithVoice := true }⟩]

theorem watchdog_exact_lostLink :
    (duringOutage {} (lostLink.take 1) (lostLink.drop 1) [])[1]? =
      some [.action .returnToLaunch] := by
  have whole := (watchdog_exact {} lostLink).2 (lostLink.take 1) (lostLink.drop 1) [] rfl
    (by simp [Begins, lostLink, Sample.connected, Outside.nominal])
    (by simp [lostLink, Sample.connected])
  exact (whole.2.2 _ 1 _ rfl rfl).trans (by decide +kernel)

/-- A threshold that is not a number has the watchdog act as soon as the link is down. -/
theorem nan_threshold_acts : ¬ ∀ (cfg : Settings) (sample : Sample), sample.connected = false →
    sample.armedWithVoice = true →
    ((watch cfg {} [sample])[0]? = some [.action (lossCommand cfg.hbAction)] ↔
      cfg.hbThresholdS ≤ ageS sample.clock sample.clock) := by
  intro claimed
  have acts := claimed { hbThresholdS := 0.0 / 0.0 }
    ⟨{ Outside.nominal with isConnected := false }, { armedWithVoice := true }⟩ rfl rfl
  have reached := acts.mp (by decide +kernel)
  have never : ¬ (0.0 / 0.0 : Float) ≤ ageS 0 0 := by decide +kernel
  exact never reached

end Lexaire.Bridge
