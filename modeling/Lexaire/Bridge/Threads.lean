import Lexaire.Core.Transition
import Lexaire.Bridge.Watchdog

/-! The running bridge: the REQ/REP loop, the watchdog and the callback thread
interleave at every atomic operation, and the vehicle moves in between. What
MAVSDK answers and delivers is left to a parameter. -/
namespace Lexaire.Bridge
open Atomic

/-- The vehicle and MAVSDK as the bridge meets them, over a state of their own. -/
structure Vehicle (ω : Type) where
  answers : (op : Op) → ω → op.Answer → ω → Prop
  moves : ω → ω → Prop
  /-- The armed subscription hands a value over to the callback. -/
  reports : ω → Bool → ω → Prop

structure Shared (ω : Type) where
  latches : SafetyState
  world : ω

variable {ω : Type}

/-- Latch accesses are atomic; everything else is up to the vehicle. -/
def Vehicle.performs (v : Vehicle ω) : (op : Op) → Shared ω → op.Answer → Shared ω → Prop
  | .loadAborted, t, r, u => r = t.latches.aborted ∧ u = t
  | .loadArmedWithVoice, t, r, u => r = t.latches.armedWithVoice ∧ u = t
  | .storeAborted b, t, _, u => u = { t with latches := { t.latches with aborted := b } }
  | .storeArmedWithVoice b, t, _, u =>
    u = { t with latches := { t.latches with armedWithVoice := b } }
  | op, t, r, u => u.latches = t.latches ∧ v.answers op t.world r u.world

/-- The request in the loop's hands, and what is left to do for it. -/
structure Serving where
  request : Parsed
  rest : Code ToolResult

structure Machine (ω : Type) where
  shared : Shared ω
  serving : Option Serving
  watchdog : Code Watch
  callback : Code Unit

/-- `run()` at the start of its loop. -/
def Machine.initial (world : ω) : Machine ω where
  shared := ⟨{}, world⟩
  serving := none
  watchdog := .done {}
  callback := .done ()

inductive Label (ω : Type) where
  | received (request : Parsed)
  | serves (op : Op) (r : op.Answer)
  | replied
  | polls
  | watches (op : Op) (r : op.Answer)
  | delivered (armed : Bool)
  | callsBack (op : Op) (r : op.Answer)
  | moved (world : ω)

/-- One atomic step of one party. -/
inductive Next (v : Vehicle ω) (cfg : Settings) : Machine ω → Label ω → Machine ω → Prop where
  | received {t : Machine ω} {request : Parsed} (idle : t.serving = none) :
      Next v cfg t (.received request)
        { t with serving := some ⟨request, handle cfg.env cfg.ctx request⟩ }
  | serves {t : Machine ω} {request : Parsed} {op : Op} {next : op.Answer → Code ToolResult}
      {r : op.Answer} {shared : Shared ω} (at_op : t.serving = some ⟨request, .step op next⟩)
      (effect : v.performs op t.shared r shared) :
      Next v cfg t (.serves op r) { t with shared, serving := some ⟨request, next r⟩ }
  | replied {t : Machine ω} {request : Parsed} {result : ToolResult}
      (ended : t.serving = some ⟨request, .done result⟩) :
      Next v cfg t .replied { t with serving := none }
  | polls {t : Machine ω} {w : Watch} (slept : t.watchdog = .done w) :
      Next v cfg t .polls { t with watchdog := heartbeatPoll cfg w }
  | watches {t : Machine ω} {op : Op} {next : op.Answer → Code Watch} {r : op.Answer}
      {shared : Shared ω} (at_op : t.watchdog = .step op next)
      (effect : v.performs op t.shared r shared) :
      Next v cfg t (.watches op r) { t with shared, watchdog := next r }
  | delivered {t : Machine ω} {armed : Bool} {world : ω} (idle : t.callback = .done ())
      (reported : v.reports t.shared.world armed world) :
      Next v cfg t (.delivered armed)
        { t with shared := { t.shared with world }, callback := armedCallback armed }
  | callsBack {t : Machine ω} {op : Op} {next : op.Answer → Code Unit} {r : op.Answer}
      {shared : Shared ω} (at_op : t.callback = .step op next)
      (effect : v.performs op t.shared r shared) :
      Next v cfg t (.callsBack op r) { t with shared, callback := next r }
  | moved {t : Machine ω} {world : ω} (moves : v.moves t.shared.world world) :
      Next v cfg t (.moved world) { t with shared := { t.shared with world } }

/-- The command methods of MAVSDK that a step invokes. -/
inductive Label.Invokes {ω : Type} : Label ω → Op → Prop where
  | served {op : Op} {r : op.Answer} (command : op.isCommand = true) : Invokes (.serves op r) op
  | watched {op : Op} {r : op.Answer} (command : op.isCommand = true) : Invokes (.watches op r) op

theorem Label.Invokes.isCommand {e : Label ω} {op : Op} (invoked : e.Invokes op) :
    op.isCommand = true := by
  cases invoked with
  | served command => exact command
  | watched command => exact command

theorem Vehicle.performs_outside {v : Vehicle ω} {o : Outside} {world : ω}
    (possible : ∀ op s, v.answers op world (o.answer op s).1 world) (op : Op) (s : SafetyState) :
    v.performs op ⟨s, world⟩ (o.answer op s).1 ⟨(o.answer op s).2, world⟩ := by
  cases op with
  | loadAborted => exact ⟨rfl, rfl⟩
  | loadArmedWithVoice => exact ⟨rfl, rfl⟩
  | storeAborted b => rfl
  | storeArmedWithVoice b => rfl
  | _ => exact ⟨rfl, possible _ s⟩

/-- The machine with other latches and other work in the loop's hands. -/
def Machine.at (t : Machine ω) (latches : SafetyState) (serving : Option Serving) : Machine ω :=
  { t with shared := { t.shared with latches }, serving }

variable {v : Vehicle ω} {o : Outside} {t : Machine ω}

/-- A request served with no other thread in between is a run of the machine:
what is proved of sequential runs is about these interleavings. -/
theorem serves_run (cfg : Settings)
    (possible : ∀ op s, v.answers op t.shared.world (o.answer op s).1 t.shared.world)
    (request : Parsed) (p : Code ToolResult) (s : SafetyState) :
    ∃ path, Transition.Run (Next v cfg) (t.at s (some ⟨request, p⟩)) path
      (t.at (p.run o.answer s).state (some ⟨request, .ofExcept (p.run o.answer s).result⟩)) := by
  induction p generalizing s with
  | done a => exact ⟨[], .nil _⟩
  | raise e => exact ⟨[], .nil _⟩
  | step op next ih =>
    have moved : Next v cfg (t.at s (some ⟨request, .step op next⟩)) (.serves op (o.answer op s).1)
        (t.at (o.answer op s).2 (some ⟨request, next (o.answer op s).1⟩)) :=
      .serves rfl (Vehicle.performs_outside possible op s)
    obtain ⟨path, rest⟩ := ih (o.answer op s).1 (o.answer op s).2
    exact ⟨_, (Transition.Run.single moved).trans rest⟩

/-- From one idle moment to the next with one request in between. -/
theorem request_run (cfg : Settings)
    (possible : ∀ op s, v.answers op t.shared.world (o.answer op s).1 t.shared.world)
    (request : Parsed) (s : SafetyState) {result : ToolResult}
    (replies : ((handle cfg.env cfg.ctx request).run o.answer s).result = .ok result) :
    ∃ path, Transition.Run (Next v cfg) (t.at s none) path
      (t.at ((handle cfg.env cfg.ctx request).run o.answer s).state none) := by
  obtain ⟨path, served⟩ := serves_run (t := t) cfg possible request
    (handle cfg.env cfg.ctx request) s
  rw [replies, Program.ofExcept_ok] at served
  have taken : Next v cfg (t.at s none) (.received request)
      (t.at s (some ⟨request, handle cfg.env cfg.ctx request⟩)) := .received rfl
  have answered : Next v cfg (t.at ((handle cfg.env cfg.ctx request).run o.answer s).state
        (some ⟨request, .done result⟩)) .replied
      (t.at ((handle cfg.env cfg.ctx request).run o.answer s).state none) := .replied rfl
  exact ⟨_, ((Transition.Run.single taken).trans served).snoc answered⟩

/-! Runs on chosen inputs are computed: the labels say what happens, and a
script says what a vehicle of its own makes of it. -/

structure Script (ω : Type) where
  answer? : (op : Op) → op.Answer → ω → Option ω
  report? : Bool → ω → Option ω
  moves : ω → ω → Bool

def Script.vehicle (script : Script ω) : Vehicle ω where
  answers op w r w' := script.answer? op r w = some w'
  moves w w' := script.moves w w' = true
  reports w armed w' := script.report? armed w = some w'

/-- Every answer is possible at any time, and the vehicle keeps no state. -/
def Script.free : Script Unit where
  answer? _ _ _ := some ()
  report? _ _ := some ()
  moves _ _ := true

def Script.performs? (script : Script ω) : (op : Op) → op.Answer → Shared ω → Option (Shared ω)
  | .loadAborted, r, t => if r = t.latches.aborted then some t else none
  | .loadArmedWithVoice, r, t => if r = t.latches.armedWithVoice then some t else none
  | .storeAborted b, _, t => some { t with latches := { t.latches with aborted := b } }
  | .storeArmedWithVoice b, _, t => some { t with latches := { t.latches with armedWithVoice := b } }
  | op, r, t => (script.answer? op r t.world).map fun world => { t with world }

def Script.step? (script : Script ω) (cfg : Settings) (t : Machine ω) : Label ω → Option (Machine ω)
  | .received request =>
    if t.serving.isNone then
      some { t with serving := some ⟨request, handle cfg.env cfg.ctx request⟩ }
    else none
  | .serves op r => do
    let serving ← t.serving
    let rest ← Program.resume? op r serving.rest
    let shared ← script.performs? op r t.shared
    return { t with shared, serving := some ⟨serving.request, rest⟩ }
  | .replied =>
    match t.serving with
    | some ⟨_, .done _⟩ => some { t with serving := none }
    | _ => none
  | .polls =>
    match t.watchdog with
    | .done w => some { t with watchdog := heartbeatPoll cfg w }
    | _ => none
  | .watches op r => do
    let rest ← Program.resume? op r t.watchdog
    let shared ← script.performs? op r t.shared
    return { t with shared, watchdog := rest }
  | .delivered armed =>
    match t.callback with
    | .done () => do
      let world ← script.report? armed t.shared.world
      return { t with shared := { t.shared with world }, callback := armedCallback armed }
    | _ => none
  | .callsBack op r => do
    let rest ← Program.resume? op r t.callback
    let shared ← script.performs? op r t.shared
    return { t with shared, callback := rest }
  | .moved world =>
    if script.moves t.shared.world world then
      some { t with shared := { t.shared with world } }
    else none

theorem Script.performs_sound {script : Script ω} {op : Op} {r : op.Answer} {t u : Shared ω}
    (performed : script.performs? op r t = some u) : script.vehicle.performs op t r u := by
  cases op with
  | loadAborted =>
    simp only [performs?, Option.ite_none_right_eq_some, Option.some.injEq] at performed
    exact ⟨performed.1, performed.2.symm⟩
  | loadArmedWithVoice =>
    simp only [performs?, Option.ite_none_right_eq_some, Option.some.injEq] at performed
    exact ⟨performed.1, performed.2.symm⟩
  | storeAborted b => exact (Option.some.inj performed).symm
  | storeArmedWithVoice b => exact (Option.some.inj performed).symm
  | _ =>
    obtain ⟨world, answered, rfl⟩ := Option.map_eq_some_iff.mp performed
    exact ⟨rfl, answered⟩

theorem Script.step_sound {script : Script ω} {cfg : Settings} {t u : Machine ω} {e : Label ω}
    (moved : script.step? cfg t e = some u) : Next script.vehicle cfg t e u := by
  cases e with
  | received request =>
    simp only [step?, Option.ite_none_right_eq_some, Option.some.injEq, Option.isNone_iff_eq_none]
      at moved
    obtain ⟨idle, rfl⟩ := moved
    exact .received idle
  | serves op r =>
    simp only [step?, Option.bind_eq_bind, Option.bind_eq_some_iff, Option.pure_def,
      Option.some.injEq] at moved
    obtain ⟨⟨request, p⟩, serving, rest, resumed, shared, performed, rfl⟩ := moved
    obtain ⟨next, rfl, rfl⟩ := Program.resume?_eq_some resumed
    exact .serves serving (performs_sound performed)
  | replied =>
    simp only [step?] at moved
    split at moved
    · rename_i request result ended
      obtain rfl := Option.some.inj moved
      exact .replied ended
    · cases moved
  | polls =>
    simp only [step?] at moved
    split at moved
    · rename_i w slept
      obtain rfl := Option.some.inj moved
      exact .polls slept
    · cases moved
  | watches op r =>
    simp only [step?, Option.bind_eq_bind, Option.bind_eq_some_iff, Option.pure_def,
      Option.some.injEq] at moved
    obtain ⟨rest, resumed, shared, performed, rfl⟩ := moved
    obtain ⟨next, at_op, rfl⟩ := Program.resume?_eq_some resumed
    exact .watches at_op (performs_sound performed)
  | delivered armed =>
    simp only [step?] at moved
    split at moved
    · rename_i idle
      simp only [Option.bind_eq_bind, Option.bind_eq_some_iff, Option.pure_def,
        Option.some.injEq] at moved
      obtain ⟨world, reported, rfl⟩ := moved
      exact .delivered idle reported
    · cases moved
  | callsBack op r =>
    simp only [step?, Option.bind_eq_bind, Option.bind_eq_some_iff, Option.pure_def,
      Option.some.injEq] at moved
    obtain ⟨rest, resumed, shared, performed, rfl⟩ := moved
    obtain ⟨next, at_op, rfl⟩ := Program.resume?_eq_some resumed
    exact .callsBack at_op (performs_sound performed)
  | moved world =>
    simp only [step?, Option.ite_none_right_eq_some, Option.some.injEq] at moved
    obtain ⟨moves, rfl⟩ := moved
    exact .moved moves

end Lexaire.Bridge
