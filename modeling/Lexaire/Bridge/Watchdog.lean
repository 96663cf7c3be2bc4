import Lexaire.Bridge.Loop

/-! The two other parties that touch the latches: one pass of the heartbeat
watchdog's loop, and the callback of the armed subscription. -/
namespace Lexaire.Bridge
open Atomic

/-- `safety.heartbeat_loss_action`; `run()` refuses any other text. -/
inductive LossAction where
  | rtl | hold
deriving DecidableEq

/-- What `run()` has read from the configuration when its threads start. -/
structure Settings where
  env : SafetyEnvelope := {}
  ctx : FlightCtx := {}
  hbThresholdS : Float := 2.0
  hbAction : LossAction := .rtl

/-- The locals of the watchdog thread; times are steady-clock nanoseconds. -/
structure Watch where
  disconnectAt : Option Nat := none
  actionFired : Bool := false

/-- `duration<double>(now - since).count()`. -/
def ageS (now since : Nat) : Float := Double.ofInt (now - since) / 1e9

def disconnectedSince : Option Nat → Code Nat
  | some since => return since
  | none => clockNow

def lossCommand : LossAction → ActionCommand
  | .hold => .hold
  | .rtl => .returnToLaunch

/-- One pass of the loop, after its sleep. -/
def heartbeatPoll (cfg : Settings) (w : Watch) : Code Watch := do
  if ← isConnected then return { disconnectAt := none, actionFired := false }
  let since ← disconnectedSince w.disconnectAt
  let now ← clockNow
  if decide (ageS now since < cfg.hbThresholdS) || w.actionFired then
    return { w with disconnectAt := some since }
  if !(← loadArmedWithVoice) then return { disconnectAt := some since, actionFired := true }
  let _ ← action (lossCommand cfg.hbAction)
  return { disconnectAt := some since, actionFired := true }

theorem heartbeatPoll_all {φ : Op → Prop} (cfg : Settings) (w : Watch) (link : φ .isConnected)
    (clock : φ .clockNow) (latch : φ .loadArmedWithVoice)
    (command : φ (.action (lossCommand cfg.hbAction))) : (heartbeatPoll cfg w).All φ := by
  have since : (disconnectedSince w.disconnectAt).All φ := by
    cases w.disconnectAt <;> simp [disconnectedSince, clockNow, clock]
  unfold heartbeatPoll
  simp only [isConnected_bind, clockNow_bind, loadArmedWithVoice_bind, action_bind,
    Program.all_step, Program.all_ite]
  refine ⟨link, fun connected => ⟨fun _ => trivial, fun _ => .bind since fun since => ?_⟩⟩
  simp [clock, latch, command]

/-- Falling edge of `armed`: the session is over for both latches. -/
def armedCallback (armed : Bool) : Code Unit :=
  if !armed then do
    storeArmedWithVoice false
    storeAborted false
  else return

end Lexaire.Bridge
