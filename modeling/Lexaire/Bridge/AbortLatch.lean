import Lexaire.Bridge.Commands
import Lexaire.Bridge.Threads

/-! The abort latch against every source of commands. The gated loop never
replaces an emergency landing, whatever the other threads do. The watchdog looks
at the other latch only, so it is tame just where it finds this one clear. -/
namespace Lexaire.Bridge
open Atomic

/-- What may still run while the abort latch is set. -/
def Op.emergency : Op → Bool
  | .action .land | .action .kill | .action .disarm => true
  | op => !op.isCommand

theorem emergency_command {op : Op} (command : op.isCommand = true)
    (spared : op.emergency = true) :
    op = .action .land ∨ op = .action .kill ∨ op = .action .disarm := by
  cases op with
  | action a =>
    cases a with
    | land => exact .inl rfl
    | kill => exact .inr (.inl rfl)
    | disarm => exact .inr (.inr rfl)
    | _ => cases spared
  | _ => simp [Op.emergency, Op.isCommand] at command spared

variable {ω : Type} {v : Vehicle ω} {cfg : Settings}

/-- The loop among threads that never set the abort latch. -/
def abortSetting (v : Vehicle ω) : Setting Op Op.Answer (Shared ω) where
  env t u := u.latches.aborted = true → t.latches.aborted = true
  performs := v.performs

def SparesLanding (op : Op) (t : Shared ω) : Prop :=
  t.latches.aborted = true → op.emergency = true

theorem performs_aborted {op : Op} {t u : Shared ω} {r : op.Answer} (effect : v.performs op t r u)
    (other : op ≠ .storeAborted true) (set : u.latches.aborted = true) :
    t.latches.aborted = true := by
  cases op with
  | loadAborted => obtain ⟨_, rfl⟩ := effect; exact set
  | loadArmedWithVoice => obtain ⟨_, rfl⟩ := effect; exact set
  | storeArmedWithVoice b => obtain rfl := effect; exact set
  | storeAborted b =>
    obtain rfl := effect
    exact absurd (congrArg Op.storeAborted set) other
  | _ => exact effect.1 ▸ set

theorem stable_clear : (abortSetting v).Stable fun t => t.latches.aborted = false := by
  intro t u moved clear
  by_cases set : u.latches.aborted = true
  · rw [moved set] at clear
    cases clear
  · simpa using set

theorem stable_true {σ : Type} {w : Setting Op Op.Answer σ} : w.Stable fun _ => True :=
  fun _ _ => trivial

theorem dispatch_emergency (ctx : FlightCtx) (c : ToolCall)
    (emergency : isEmergencyFollowup c.name = true) :
    (dispatch c ctx).All (·.emergency = true) := by
  refine (dispatch_all c ctx).mono fun op asked => ?_
  simp only [isEmergencyFollowup, Bool.or_eq_true, beq_iff_eq] at emergency
  rcases emergency with ((named | named) | named) | named <;> rw [named] at asked <;>
    cases op with
    | action a => cases a <;> first | rfl | cases asked
    | offboard a => cases a <;> cases asked
    | _ => first | rfl | cases asked

theorem finish_emergency (ctx : FlightCtx) (c : ToolCall)
    (emergency : isEmergencyFollowup c.name = true) :
    (finish ctx c).All (·.emergency = true) := by
  refine .bind (dispatch_emergency ctx c emergency) fun result => ?_
  have stores : (commit c).All (·.emergency = true) :=
    (commit_all c).mono fun op stores => by cases op <;> first | rfl | cases stores
  simp only [Program.all_ite]
  exact ⟨fun _ => .bind stores fun _ => trivial, fun _ => trivial⟩

/-- Only `abort` and `kill` set the latch. -/
theorem finish_never_latches (ctx : FlightCtx) (c : ToolCall)
    (ordinary : isEmergencyFollowup c.name = false) :
    (finish ctx c).All (· ≠ .storeAborted true) := by
  simp only [isEmergencyFollowup, Bool.or_eq_false_iff, beq_eq_false_iff_ne] at ordinary
  obtain ⟨⟨⟨notAbort, notKill⟩, _⟩, notDisarm⟩ := ordinary
  have asked : (dispatch c ctx).All (· ≠ .storeAborted true) := by
    refine (dispatch_all c ctx).mono ?_
    rintro _ asked rfl
    simp [Op.ofTool, notAbort, notKill] at asked
  have stores : (commit c).All (· ≠ .storeAborted true) := by
    by_cases arm : c.name = "arm"
    · simp only [commit, arm, beq_self_eq_true, if_true]
      refine .bind (by simp) fun confirmed => ?_
      cases confirmed <;> simp [storeArmedWithVoice]
    · simp [commit, arm, notDisarm]
  refine .bind asked fun result => ?_
  simp only [Program.all_ite]
  exact ⟨fun _ => .bind stores fun _ => trivial, fun _ => trivial⟩

/-- The gate's first load decides: behind a set latch only the emergency tools
go on, and before a clear one nothing that follows sets it. -/
theorem serve_spares (env : SafetyEnvelope) (ctx : FlightCtx) (c : ToolCall) (t : Shared ω) :
    (serve env ctx c).Holds (abortSetting v) SparesLanding (fun _ _ => True) t := by
  have shape : serve env ctx c = .step .loadAborted fun aborted =>
      (if aborted && !isEmergencyFollowup c.name then pure (deny "abort_active")
      else do
        if ← spokenArmMissing c.name c.args env then return deny "spoken_arm_required"
        return checkLimits c.name c.args env) >>= fun d =>
      if !d.allow then
        pure { requestId := c.requestId, error := "safety_denied: " ++ d.reason }
      else finish ctx c := rfl
  rw [shape]
  refine .of_step stable_true trivial (fun _ _ _ => rfl) fun t aborted u _ effect => ?_
  obtain ⟨found, rfl⟩ := effect
  have gated {φ : Op → Prop} (reads : ∀ op, op.readsLatch = true → φ op)
      (rest : (finish ctx c).All φ) :
      ((do
        if ← spokenArmMissing c.name c.args env then return deny "spoken_arm_required"
        return checkLimits c.name c.args env) >>= fun d =>
      if !d.allow then
        pure { requestId := c.requestId, error := "safety_denied: " ++ d.reason }
      else finish ctx c : Code ToolResult).All φ := by
    refine .bind (.bind ((spokenArmMissing_all _ _ _).mono reads) fun missing => ?_) fun d => ?_
    · cases missing <;> trivial
    · cases d.allow
      · trivial
      · exact rest
  cases emergency : isEmergencyFollowup c.name with
  | true =>
    simp only [Bool.not_true, Bool.and_false, Bool.false_eq_true, if_false]
    refine .of_all (P := fun _ => True) stable_true
      (gated (fun op read => by cases op <;> first | rfl | cases read)
        (finish_emergency ctx c emergency))
      (fun _ _ _ _ _ _ _ => trivial) (fun op _ spared _ _ => spared) (fun _ _ _ => trivial) trivial
  | false =>
    cases aborted with
    | true =>
      simp only [Bool.not_false, Bool.and_true, if_true, Program.pure_eq, Program.done_bind,
        deny_allow]
      exact .of_done stable_true trivial fun _ _ => trivial
    | false =>
      simp only [Bool.false_and, Bool.false_eq_true, if_false]
      refine .of_all stable_clear
        (gated (fun op read => by rintro rfl; cases read) (finish_never_latches ctx c emergency))
        ?_ ?_ (fun _ _ _ => trivial) found.symm
      · intro op t r u other clear effect
        by_cases set : u.latches.aborted = true
        · rw [performs_aborted effect other set] at clear
          cases clear
        · simpa using set
      · intro op t _ clear set
        rw [clear] at set
        cases set

theorem handle_spares (env : SafetyEnvelope) (ctx : FlightCtx) (request : Parsed) (t : Shared ω) :
    (handle env ctx request).Holds (abortSetting v) SparesLanding (fun _ _ => True) t := by
  have body : (do
      let req ← Program.ofExcept request.get
      let c ← Program.ofExcept (ToolCall.fromJson req)
      serve env ctx c : Code ToolResult).Holds (abortSetting v) SparesLanding
        (fun _ _ => True) t := by
    cases request.get with
    | error e => exact .of_raise stable_true trivial fun _ _ => trivial
    | ok j =>
      cases read : ToolCall.fromJson j with
      | error e =>
        simp only [Program.ofExcept_ok, Program.done_bind, read, Program.ofExcept_error,
          Program.raise_bind]
        exact .of_raise stable_true trivial fun _ _ => trivial
      | ok c =>
        simp only [Program.ofExcept_ok, Program.done_bind, read]
        exact serve_spares env ctx c t
  exact body.catching (fun _ _ _ => trivial) fun e t _ =>
    .of_done stable_true trivial fun _ _ => trivial

/-! The watchdog commands the vehicle only right after it read the voice latch set. -/

/-- The answer that sends the watchdog on to its command. -/
def Op.clears : (op : Op) → op.Answer → Bool
  | .loadArmedWithVoice, latched => latched
  | _, _ => false

def Checked : Bool → Code Watch → Prop
  | _, .done _ | _, .raise _ => True
  | cleared, .step op next =>
    (op.isCommand = true → cleared = true) ∧ ∀ r, Checked (op.clears r) (next r)

theorem Checked.of_silent {op : Op} {next : op.Answer → Code Watch} {cleared : Bool}
    (checked : Checked cleared (.step op next)) (silent : op.isCommand = false) :
    Checked false (.step op next) :=
  ⟨fun command => absurd (silent.symm.trans command) Bool.false_ne_true, checked.2⟩

theorem heartbeatPoll_checked (cfg : Settings) (w : Watch) : Checked false (heartbeatPoll cfg w) := by
  have rest (since now : Nat) : Checked false (do
      if decide (ageS now since < cfg.hbThresholdS) || w.actionFired then
        return { w with disconnectAt := some since }
      if !(← loadArmedWithVoice) then return { disconnectAt := some since, actionFired := true }
      let _ ← action (lossCommand cfg.hbAction)
      return { disconnectAt := some since, actionFired := true }) := by
    cases decide (ageS now since < cfg.hbThresholdS) || w.actionFired with
    | true => trivial
    | false =>
      refine ⟨fun command => (nomatch command), fun latched => ?_⟩
      cases latched with
      | false => trivial
      | true => exact ⟨fun _ => rfl, fun _ => trivial⟩
  refine ⟨fun command => (nomatch command), fun connected => ?_⟩
  cases connected with
  | true => trivial
  | false =>
    cases w.disconnectAt with
    | some since => exact ⟨fun command => (nomatch command), fun now => rest since now⟩
    | none =>
      exact ⟨fun command => (nomatch command), fun since =>
        ⟨fun command => (nomatch command), fun now => rest since now⟩⟩

/-- The watchdog is past its check and about to command the vehicle. -/
def Machine.Acting (t : Machine ω) : Prop :=
  ∃ (op : Op) (next : op.Answer → Code Watch), t.watchdog = .step op next ∧ op.isCommand = true

/-- An outage that the watchdog acts on finds the latch clear, and no abort
arrives between its check and its command. -/
def Tame (t : Machine ω) : Label ω → Prop
  | .watches .loadArmedWithVoice armed => armed = true → t.shared.latches.aborted = false
  | .serves (.storeAborted true) _ => ¬ t.Acting
  | _ => True

structure AbortInvariant (v : Vehicle ω) (t : Machine ω) : Prop where
  spares : ∀ {request rest}, t.serving = some ⟨request, rest⟩ →
    rest.Holds (abortSetting v) SparesLanding (fun _ _ => True) t.shared
  watches : t.watchdog.All (·.storesLatch = false)
  checked : ∃ cleared, Checked cleared t.watchdog ∧
    (cleared = true → t.shared.latches.aborted = false)
  clears : t.callback.All (· ≠ .storeAborted true)

theorem armedCallback_all (armed : Bool) : (armedCallback armed).All (· ≠ .storeAborted true) := by
  cases armed <;> simp [armedCallback, storeAborted]

theorem clear_of_effect {op : Op} {t u : Shared ω} {r : op.Answer} (effect : v.performs op t r u)
    (other : op ≠ .storeAborted true) (clear : t.latches.aborted = false) :
    u.latches.aborted = false := by
  cases set : u.latches.aborted with
  | false => rfl
  | true => exact clear ▸ (performs_aborted effect other set).symm

namespace AbortInvariant
variable {t u : Machine ω} {e : Label ω}

theorem initial (world : ω) : AbortInvariant v (Machine.initial world) :=
  ⟨by simp [Machine.initial], trivial, ⟨false, trivial, by simp⟩, trivial⟩

theorem step (inv : AbortInvariant v t) (tame : Tame t e) (moved : Next v cfg t e u) :
    AbortInvariant v u := by
  cases moved with
  | received idle =>
    refine ⟨?_, inv.watches, inv.checked, inv.clears⟩
    rintro request rest serving
    obtain ⟨rfl, rfl⟩ := Serving.mk.inj (Option.some.inj serving)
    exact handle_spares _ _ _ _
  | @serves request op next r shared at_op effect =>
    refine ⟨?_, inv.watches, ?_, inv.clears⟩
    · rintro request rest serving
      obtain ⟨rfl, rfl⟩ := Serving.mk.inj (Option.some.inj serving)
      exact (inv.spares at_op).performed effect
    · obtain ⟨cleared, checked, clear⟩ := inv.checked
      by_cases latches : op = .storeAborted true
      · subst latches
        refine ⟨false, ?_, by simp⟩
        change Checked false t.watchdog
        cases watchdog : t.watchdog with
        | done w => trivial
        | raise e => trivial
        | step op next =>
          rw [watchdog] at checked
          apply checked.of_silent
          cases silent : op.isCommand with
          | false => rfl
          | true => exact absurd ⟨op, next, watchdog, silent⟩ tame
      · exact ⟨cleared, checked, fun acting => clear_of_effect effect latches (clear acting)⟩
  | replied ended => exact ⟨by simp, inv.watches, inv.checked, inv.clears⟩
  | @polls w slept =>
    have reads : (heartbeatPoll cfg w).All (·.storesLatch = false) :=
      heartbeatPoll_all cfg w (by rfl) (by rfl) (by rfl) (by rfl)
    exact ⟨inv.spares, reads, ⟨false, heartbeatPoll_checked cfg _, by simp⟩,
      inv.clears⟩
  | @watches op next r shared at_op effect =>
    have all := inv.watches
    obtain ⟨cleared, checked, clear⟩ := inv.checked
    rw [at_op] at all checked
    have other : op ≠ .storeAborted true := by
      rintro rfl
      exact absurd all.1 (by simp [Op.storesLatch])
    refine ⟨fun serving => (inv.spares serving).interfered (performs_aborted effect other), all.2 r,
      ⟨op.clears r, checked.2 r, fun acting => ?_⟩, inv.clears⟩
    cases op with
    | loadArmedWithVoice =>
      obtain ⟨_, rfl⟩ := effect
      exact tame acting
    | _ => cases acting
  | delivered idle reported =>
    exact ⟨fun serving => (inv.spares serving).interfered fun set => set, inv.watches, inv.checked,
      armedCallback_all _⟩
  | @callsBack op next r shared at_op effect =>
    have all := inv.clears
    rw [at_op] at all
    obtain ⟨cleared, checked, clear⟩ := inv.checked
    exact ⟨fun serving => (inv.spares serving).interfered (performs_aborted effect all.1), inv.watches,
      ⟨cleared, checked, fun acting => clear_of_effect effect all.1 (clear acting)⟩, all.2 r⟩
  | moved =>
    exact ⟨fun serving => (inv.spares serving).interfered fun set => set, inv.watches, inv.checked,
      inv.clears⟩

theorem command_spares (inv : AbortInvariant v t) (moved : Next v cfg t e u) {op : Op}
    (invoked : e.Invokes op) (aborted : t.shared.latches.aborted = true) : op.emergency = true := by
  cases invoked with
  | served command =>
    cases moved with
    | serves at_op effect => exact (inv.spares at_op).now_good aborted
  | watched command =>
    cases moved with
    | watches at_op effect =>
      obtain ⟨cleared, checked, clear⟩ := inv.checked
      rw [at_op] at checked
      rw [clear (checked.1 command)] at aborted
      cases aborted

end AbortInvariant

/-- In a run whose watchdog stays tame, no command but land, kill and disarm is
invoked from the moment the abort latch is set until it is next cleared. -/
theorem abort_latch_dominates (v : Vehicle ω) (cfg : Settings) (world : ω) {t : Machine ω}
    {path : List (Machine ω × Label ω)}
    (run : Transition.Run (Next v cfg) (Machine.initial world) path t)
    (tame : ∀ p ∈ path, Tame p.1 p.2) :
    ∀ p ∈ path, ∀ op, p.2.Invokes op → p.1.shared.latches.aborted = true →
      op = .action .land ∨ op = .action .kill ∨ op = .action .disarm := by
  intro p member op invoked aborted
  have spared := (run.invariant Tame
    (fun t e => ∀ op, e.Invokes op → t.shared.latches.aborted = true → op.emergency = true)
    (fun inv tame moved => AbortInvariant.step inv tame moved)
    (fun inv _ moved op invoked aborted => inv.command_spares moved invoked aborted)
    (AbortInvariant.initial world) tame).2 p member op invoked aborted
  exact emergency_command invoked.isCommand spared

/-- A spoken arm, then an abort in the air. -/
def landingLabels : List (Label Unit) := [
  .received (.value (.object [("name", .string "arm"),
    ("args", .object [("voice_confirmed", .boolean true)])])),
  .serves .loadAborted false,
  .serves .loadArmedWithVoice false,
  .serves (.action .arm) .success,
  .serves (.storeArmedWithVoice true) (),
  .replied,
  .received (.value (.object [("name", .string "abort")])),
  .serves .loadAborted false,
  .serves .inAir true,
  .serves (.storeAborted true) (),
  .serves (.action .land) .success,
  .replied]

def watchdogSleeps (p : Machine Unit × Label Unit) : Bool :=
  match p.2, p.1.watchdog with
  | .watches _ _, _ => false
  | _, .done _ => true
  | _, _ => false

theorem tame_of_watchdogSleeps {p : Machine Unit × Label Unit} (sleeps : watchdogSleeps p = true) :
    Tame p.1 p.2 := by
  obtain ⟨t, e⟩ := p
  have resting : ¬ t.Acting := by
    rintro ⟨op, next, acting, _⟩
    cases e <;> simp [watchdogSleeps, acting] at sleeps
  cases e with
  | watches op r => simp [watchdogSleeps] at sleeps
  | serves op r =>
    cases op with
    | storeAborted b => cases b <;> first | exact resting | trivial
    | _ => trivial
  | _ => trivial

/-- The landing itself: the abort and its command are in the run, and no other command is. -/
theorem abort_latch_dominates_landing : ∃ path t,
    Transition.Run (Next Script.free.vehicle {}) (Machine.initial ()) path t ∧
    t.shared.latches.aborted = true ∧
    ∀ p ∈ path, ∀ op, p.2.Invokes op → p.1.shared.latches.aborted = true →
      op = .action .land ∨ op = .action .kill ∨ op = .action .disarm := by
  have found : (Transition.replay (Script.free.step? {}) (Machine.initial ()) landingLabels).any
      (fun ran => ran.1.all watchdogSleeps && ran.2.shared.latches.aborted) = true := by
    decide +kernel
  obtain ⟨⟨path, t⟩, ran, sleeps⟩ := (Option.any_eq_true _ _).mp found
  obtain ⟨sleeps, latched⟩ := Bool.and_eq_true_iff.mp sleeps
  have run := Transition.Run.of_replay Script.step_sound ran
  refine ⟨path, t, run, latched, abort_latch_dominates Script.free.vehicle {} () run ?_⟩
  exact fun p member => tame_of_watchdogSleeps (List.all_eq_true.mp sleeps p member)

/-- The link is then down for three seconds. -/
def outageLabels : List (Label Unit) := landingLabels ++ [
  .polls,
  .watches .isConnected false,
  .watches .clockNow (0 : Nat),
  .watches .clockNow (3000000000 : Nat),
  .watches .loadArmedWithVoice true,
  .watches (.action .returnToLaunch) .success]

def replacesLanding (p : Machine Unit × Label Unit) : Bool :=
  match p.2 with
  | .watches (.action .returnToLaunch) _ => p.1.shared.latches.aborted
  | _ => false

/-- The watchdog turns an emergency landing into a return to launch. -/
theorem watchdog_replaces_landing : ∃ path t,
    Transition.Run (Next Script.free.vehicle {}) (Machine.initial ()) path t ∧
    ∃ p ∈ path, p.2.Invokes (.action .returnToLaunch) ∧ p.1.shared.latches.aborted = true := by
  have found : (Transition.replay (Script.free.step? {}) (Machine.initial ()) outageLabels).any
      (fun ran => ran.1.any replacesLanding) = true := by decide +kernel
  obtain ⟨⟨path, t⟩, ran, bad⟩ := (Option.any_eq_true _ _).mp found
  obtain ⟨⟨u, e⟩, member, replaced⟩ := List.any_eq_true.mp bad
  refine ⟨path, t, .of_replay Script.step_sound ran, ⟨u, e⟩, member, ?_⟩
  unfold replacesLanding at replaced
  split at replaced
  · rename_i same
    obtain rfl := same
    exact ⟨.watched rfl, replaced⟩
  · cases replaced

end Lexaire.Bridge
