import Lexaire.Bridge.Phases
import Lexaire.Bridge.Threads

/-! The session latches against the vehicle. Between a command and the store that
follows it, the vehicle and the callback can get ahead of a request. The condition
under which they do not is stated on the storing steps; nothing else can break
the agreement of latches and vehicle. -/
namespace Lexaire.Bridge
open Atomic Transition

/-- The arm state, the number of its session, and the reported values that the
callback has not been given yet. -/
structure Craft where
  armed : Bool
  session : Nat
  undelivered : List Bool
deriving DecidableEq

/-- The vehicle has the armed value `armed` from now on, and reports it. -/
def Craft.become (w : Craft) (armed : Bool) : Craft where
  armed := armed
  session := if armed && !w.armed then w.session + 1 else w.session
  undelivered := w.undelivered ++ [armed]

/-- A vehicle whose accepted arm and disarm take effect. It may change or repeat
its armed value at any time, answers everything else at will, and its values are
delivered in order. -/
def Craft.script : Script Craft where
  answer? op r w :=
    match op, r with
    | .action .arm, .success => some (if w.armed then w else w.become true)
    | .action .disarm, .success => some (if w.armed then w.become false else w)
    | _, _ => some w
  report? armed w :=
    match w.undelivered with
    | [] => none
    | b :: rest => if b = armed then some { w with undelivered := rest } else none
  moves w w' := w' = w.become true || w' = w.become false

abbrev Craft.vehicle : Vehicle Craft := Craft.script.vehicle

/-- A step in which an arm call with `voice_confirmed` succeeds. -/
def VoiceArm (p : Machine Craft × Label Craft) : Prop :=
  (∃ request rest, p.1.serving = some ⟨request, rest⟩ ∧ request.Confirmed) ∧
    p.2 = .serves (.action .arm) .success

/-- The armed session that an arm in this state starts or is in. -/
def Machine.armsSession (t : Machine Craft) : Nat :=
  if t.shared.world.armed then t.shared.world.session else t.shared.world.session + 1

/-- The vehicle is armed, and a spoken arm took place in or started this session. -/
def VoiceSession (path : List (Machine Craft × Label Craft)) (w : Craft) : Prop :=
  w.armed = true ∧ ∃ p ∈ path, VoiceArm p ∧ p.1.armsSession = w.session

/-- A falling edge has yet to clear the spoken-arm latch. -/
def Machine.Owed (t : Machine Craft) : Prop :=
  false ∈ t.shared.world.undelivered ∨ t.callback = armedCallback false

/-- A falling edge has yet to clear the abort latch. -/
def Machine.AbortOwed (t : Machine Craft) : Prop :=
  false ∈ t.shared.world.undelivered ∨ t.callback ≠ .done ()

/-- No request in progress and every armed value delivered. -/
structure Machine.Quiescent (t : Machine Craft) : Prop where
  idle : t.serving = none
  returned : t.callback = .done ()
  delivered : t.shared.world.undelivered = []

/-- The commit of a spoken arm finds its session still going and nothing of an
earlier one left to deliver, or finds the falling edge that ended it still to be
delivered; and an abort is latched on an armed vehicle, or before the falling edge. -/
def StoresInTime (before : List (Machine Craft × Label Craft))
    (p : Machine Craft × Label Craft) : Prop :=
  match p.2 with
  | .serves (.storeArmedWithVoice true) _ => VoiceSession before p.1.shared.world ↔ ¬ p.1.Owed
  | .serves (.storeAborted true) _ => p.1.shared.world.armed = true ∨ p.1.AbortOwed
  | _ => True

variable {cfg : Settings} {path : List (Machine Craft × Label Craft)} {t u : Machine Craft}
  {e : Label Craft}

/-- The request has armed the vehicle and is about to latch it. -/
def Machine.Committing (t : Machine Craft) : Prop :=
  ∃ request rest, t.serving = some ⟨request, rest⟩ ∧ Commits rest

/-- What is left of a request, phase by phase. -/
inductive Phase (path : List (Machine Craft × Label Craft)) (w : Craft) :
    Prop → Code ToolResult → Prop where
  | orderly {confirmed : Prop} {rest : Code ToolResult} :
      Orderly confirmed rest → Phase path w confirmed rest
  | commits {confirmed : Prop} {rest : Code ToolResult} : Commits rest → Phase path w confirmed rest
  | clears {confirmed : Prop} {rest : Code ToolResult} :
      Clears rest → ¬ VoiceSession path w → Phase path w confirmed rest
  | plain {confirmed : Prop} {rest : Code ToolResult} :
      rest.All (·.plain = true) → Phase path w confirmed rest

structure SessionInvariant (path : List (Machine Craft × Label Craft)) (t : Machine Craft) :
    Prop where
  phase : ∀ {request rest}, t.serving = some ⟨request, rest⟩ →
    Phase path t.shared.world request.Confirmed rest
  voice : ¬ t.Committing →
    (VoiceSession path t.shared.world ↔ t.shared.latches.armedWithVoice = true ∧ ¬ t.Owed)
  abort : t.shared.world.armed = false → t.shared.latches.aborted = false ∨ t.AbortOwed
  callback : t.callback = armedCallback false ∨
    t.callback = .step (.storeAborted false) .done ∨ t.callback = .done ()
  sessions : ∀ p ∈ path, VoiceArm p → p.1.armsSession ≤ t.shared.world.session
  watchdog : t.watchdog.All fun op => op.plain = true ∧ op.storesLatch = false

/-- A step that is no spoken arm adds nothing to the history of a session. -/
theorem voiceSession_snoc {w : Craft} {p : Machine Craft × Label Craft} (silent : ¬ VoiceArm p) :
    VoiceSession (path ++ [p]) w ↔ VoiceSession path w := by
  simp only [VoiceSession, List.mem_append, List.mem_singleton]
  constructor
  · rintro ⟨armed, q, member, voice, same⟩
    rcases member with member | rfl
    · exact ⟨armed, q, member, voice, same⟩
    · exact absurd voice silent
  · rintro ⟨armed, q, member, voice, same⟩
    exact ⟨armed, q, .inl member, voice, same⟩

theorem sessions_snoc {n : Nat} {p : Machine Craft × Label Craft}
    (sessions : ∀ q ∈ path, VoiceArm q → q.1.armsSession ≤ n) (silent : ¬ VoiceArm p) :
    ∀ q ∈ path ++ [p], VoiceArm q → q.1.armsSession ≤ n := by
  intro q member voice
  rcases List.mem_append.mp member with earlier | last
  · exact sessions q earlier voice
  · obtain rfl := List.mem_singleton.mp last
    exact absurd voice silent

/-- A new session has no spoken arm in it yet. -/
theorem voiceSession_become {w : Craft} {armed : Bool}
    (sessions : ∀ p ∈ path, VoiceArm p → p.1.armsSession ≤ w.session) :
    VoiceSession path (w.become armed) ↔ armed = true ∧ VoiceSession path w := by
  simp only [VoiceSession, Craft.become]
  cases armed with
  | false => simp
  | true =>
    cases armed : w.armed with
    | true => simp
    | false =>
      simp only [Bool.not_false, Bool.and_true, if_true, true_and, Bool.false_eq_true, false_and,
        iff_false, not_exists, not_and]
      intro p member voice same
      have bound := sessions p member voice
      omega

theorem owed_become {w : Craft} {armed : Bool} :
    false ∈ (w.become armed).undelivered ↔ armed = false ∨ false ∈ w.undelivered := by
  cases armed <;> simp [Craft.become]

/-- What an operation other than arm, disarm and the spoken-arm stores leaves alone. -/
theorem plain_effect {op : Op} {r : op.Answer} {t u : Shared Craft} (plain : op.plain = true)
    (effect : Craft.vehicle.performs op t r u) :
    u.world = t.world ∧ u.latches.armedWithVoice = t.latches.armedWithVoice ∧
      ((∃ b, op = .storeAborted b ∧ u.latches.aborted = b) ∨
        (op.storesLatch = false ∧ u.latches.aborted = t.latches.aborted)) := by
  cases op with
  | loadAborted => obtain ⟨_, rfl⟩ := effect; exact ⟨rfl, rfl, .inr ⟨rfl, rfl⟩⟩
  | loadArmedWithVoice => obtain ⟨_, rfl⟩ := effect; exact ⟨rfl, rfl, .inr ⟨rfl, rfl⟩⟩
  | storeAborted b => obtain rfl := effect; exact ⟨rfl, rfl, .inl ⟨b, rfl, rfl⟩⟩
  | storeArmedWithVoice b => cases plain
  | action a =>
    obtain ⟨latches, answered⟩ := effect
    have same : u.world = t.world := by
      cases a <;> first | exact (Option.some.inj answered).symm | cases plain
    exact ⟨same, by rw [latches], .inr ⟨rfl, by rw [latches]⟩⟩
  | _ =>
    obtain ⟨latches, answered⟩ := effect
    exact ⟨(Option.some.inj answered).symm, by rw [latches], .inr ⟨rfl, by rw [latches]⟩⟩

/-- An accepted arm leaves the vehicle in the session it started or was in. -/
theorem arm_effect {r : ActionResult} {t : Machine Craft} {shared : Shared Craft}
    (effect : Craft.vehicle.performs (.action .arm) t.shared r shared) :
    shared.latches = t.shared.latches ∧
      (false ∈ shared.world.undelivered ↔ false ∈ t.shared.world.undelivered) ∧
      ((r = .success ∧ shared.world.armed = true ∧ shared.world.session = t.armsSession) ∨
        (r ≠ .success ∧ shared.world = t.shared.world)) := by
  obtain ⟨latches, answered⟩ := effect
  refine ⟨latches, ?_⟩
  by_cases accepted : r = .success
  · subst accepted
    have world : (if t.shared.world.armed then t.shared.world else t.shared.world.become true) =
        shared.world := Option.some.inj answered
    rw [← world]
    cases armed : t.shared.world.armed with
    | true => simp [armed, Machine.armsSession]
    | false => simp [armed, Machine.armsSession, Craft.become]
  · have world : t.shared.world = shared.world := by
      cases r <;> first | exact Option.some.inj answered | exact absurd rfl accepted
    rw [← world]
    exact ⟨.rfl, .inr ⟨accepted, rfl⟩⟩

theorem disarm_effect {r : ActionResult} {t : Machine Craft} {shared : Shared Craft}
    (effect : Craft.vehicle.performs (.action .disarm) t.shared r shared) :
    shared.latches = t.shared.latches ∧
      ((r = .success ∧ t.shared.world.armed = true ∧
          shared.world = t.shared.world.become false) ∨
        (r = .success ∧ t.shared.world.armed = false ∧ shared.world = t.shared.world) ∨
        (r ≠ .success ∧ shared.world = t.shared.world)) := by
  obtain ⟨latches, answered⟩ := effect
  refine ⟨latches, ?_⟩
  by_cases accepted : r = .success
  · subst accepted
    have world : (if t.shared.world.armed then t.shared.world.become false else t.shared.world) =
        shared.world := Option.some.inj answered
    rw [← world]
    cases armed : t.shared.world.armed <;> simp
  · have world : t.shared.world = shared.world := by
      cases r <;> first | exact Option.some.inj answered | exact absurd rfl accepted
    exact .inr (.inr ⟨accepted, world.symm⟩)

theorem Phase.mono {path path' : List (Machine Craft × Label Craft)} {w w' : Craft}
    {confirmed : Prop} {rest : Code ToolResult} (phase : Phase path w confirmed rest)
    (less : VoiceSession path' w' → VoiceSession path w) : Phase path' w' confirmed rest := by
  cases phase with
  | orderly orderly => exact .orderly orderly
  | commits commits => exact .commits commits
  | clears clears silent => exact .clears clears fun voice => silent (less voice)
  | plain plain => exact .plain plain

theorem not_committing {request : Parsed} {op : Op} {next : op.Answer → Code ToolResult}
    (at_op : t.serving = some ⟨request, .step op next⟩) (other : op ≠ .storeArmedWithVoice true) :
    ¬ t.Committing := by
  rintro ⟨request', rest, serving, next', rfl, _⟩
  rw [at_op] at serving
  obtain ⟨_, same⟩ := Serving.mk.inj (Option.some.inj serving)
  obtain ⟨rfl, _⟩ := Program.step.inj same
  exact other rfl

theorem not_voiceArm {request : Parsed} {op : Op} {next : op.Answer → Code ToolResult}
    {r : op.Answer} (at_op : t.serving = some ⟨request, .step op next⟩)
    (silent : ¬ (op = .action .arm ∧ request.Confirmed)) : ¬ VoiceArm (t, .serves op r) := by
  rintro ⟨⟨request', rest, serving, confirmed⟩, same⟩
  rw [at_op] at serving
  obtain ⟨rfl, _⟩ := Serving.mk.inj (Option.some.inj serving)
  obtain ⟨rfl, _⟩ := Label.serves.inj same
  exact silent ⟨rfl, confirmed⟩

namespace SessionInvariant

theorem initial (w : Craft) : SessionInvariant [] (Machine.initial w) where
  phase serving := by cases serving
  voice _ := by simp [VoiceSession, Machine.initial]
  abort _ := .inl rfl
  callback := .inr (.inr rfl)
  sessions := by simp
  watchdog := trivial

variable {request : Parsed} {op : Op} {next : op.Answer → Code ToolResult} {r : op.Answer}
  {shared : Shared Craft}

/-- Serving a plain operation moves nothing but, in time, the abort latch. -/
theorem serves_plain (inv : SessionInvariant path t)
    (at_op : t.serving = some ⟨request, .step op next⟩)
    (effect : Craft.vehicle.performs op t.shared r shared) (plain : op.plain = true)
    (inTime : StoresInTime path (t, .serves op r))
    (phase : Phase path t.shared.world request.Confirmed (next r)) :
    SessionInvariant (path ++ [(t, .serves op r)])
      { t with shared, serving := some ⟨request, next r⟩ } := by
  obtain ⟨world, latch, aborted⟩ := plain_effect plain effect
  have silent : ¬ VoiceArm (t, .serves op r) := by
    apply not_voiceArm at_op
    rintro ⟨rfl, _⟩
    cases plain
  have other : op ≠ .storeArmedWithVoice true := by
    rintro rfl
    cases plain
  refine ⟨?_, ?_, ?_, inv.callback, ?_, inv.watchdog⟩
  · rintro request' rest serving
    obtain ⟨rfl, rfl⟩ := Serving.mk.inj (Option.some.inj serving)
    exact phase.mono fun voice => by rwa [voiceSession_snoc silent, world] at voice
  · intro _
    rw [voiceSession_snoc silent]
    simpa only [world, latch, Machine.Owed] using inv.voice (not_committing at_op other)
  · intro disarmed
    simp only [world, Machine.AbortOwed] at disarmed ⊢
    rcases aborted with ⟨b, rfl, stored⟩ | ⟨_, kept⟩
    · cases b with
      | false => exact .inl stored
      | true =>
        rcases inTime with armed | owed
        · exact absurd (disarmed.symm.trans armed) Bool.false_ne_true
        · exact .inr owed
    · rw [kept]
      exact inv.abort disarmed
  · rw [world]
    exact sessions_snoc inv.sessions silent

/-- The latch may take a value that the history of the session bears out. -/
theorem serves_latch {next : Unit → Code ToolResult} {value : Bool} (inv : SessionInvariant path t)
    (at_op : t.serving = some ⟨request, .step (.storeArmedWithVoice value) next⟩)
    (rest : ∀ u, (next u).All (·.plain = true)) {r : Unit}
    (effect : Craft.vehicle.performs (.storeArmedWithVoice value) t.shared r shared)
    (borne : VoiceSession path t.shared.world ↔ value = true ∧ ¬ t.Owed) :
    SessionInvariant (path ++ [(t, .serves (.storeArmedWithVoice value) r)])
      { t with shared, serving := some ⟨request, next r⟩ } := by
  obtain rfl := effect
  have silent : ¬ VoiceArm (t, .serves (.storeArmedWithVoice value) r) :=
    not_voiceArm at_op (by simp)
  refine ⟨?_, ?_, inv.abort, inv.callback, sessions_snoc inv.sessions silent, inv.watchdog⟩
  · rintro request' rest' serving
    obtain ⟨rfl, rfl⟩ := Serving.mk.inj (Option.some.inj serving)
    exact .plain (rest r)
  · intro _
    rw [voiceSession_snoc silent]
    exact borne

theorem serves_arm {next : ActionResult → Code ToolResult} {r : ActionResult}
    (inv : SessionInvariant path t)
    (at_op : t.serving = some ⟨request, .step (.action .arm) next⟩)
    (orderly : Orderly request.Confirmed (.step (.action .arm) next))
    (effect : Craft.vehicle.performs (.action .arm) t.shared r shared) :
    SessionInvariant (path ++ [(t, .serves (.action .arm) r)])
      { t with shared, serving := some ⟨request, next r⟩ } := by
  obtain ⟨latches, undelivered, moved⟩ := arm_effect effect
  have before := inv.voice (not_committing at_op (by simp))
  by_cases spoken : r = .success ∧ request.Confirmed
  · obtain ⟨rfl, confirmed⟩ := spoken
    have commits := (orderly .success).1 ⟨rfl, confirmed⟩
    obtain ⟨_, armed, session⟩ : _ ∧ _ ∧ _ := moved.resolve_right fun other => other.1 rfl
    refine ⟨?_, fun waiting => ?_, fun disarmed => ?_, inv.callback, ?_, inv.watchdog⟩
    · rintro request' rest serving
      obtain ⟨rfl, rfl⟩ := Serving.mk.inj (Option.some.inj serving)
      exact .commits commits
    · exact absurd ⟨request, next .success, rfl, commits⟩ waiting
    · exact absurd (disarmed.symm.trans armed) Bool.false_ne_true
    · have later : t.shared.world.session ≤ t.armsSession := by
        unfold Machine.armsSession
        split <;> omega
      intro p member voice
      rw [session]
      rcases List.mem_append.mp member with earlier | last
      · exact (inv.sessions p earlier voice).trans later
      · obtain rfl := List.mem_singleton.mp last
        exact Nat.le_refl _
  · have silent : ¬ VoiceArm (t, .serves (.action .arm) r) := by
      rintro ⟨⟨request', rest, serving, confirmed⟩, same⟩
      rw [at_op] at serving
      obtain ⟨rfl, _⟩ := Serving.mk.inj (Option.some.inj serving)
      obtain ⟨_, accepted⟩ := Label.serves.inj same
      exact spoken ⟨eq_of_heq accepted, confirmed⟩
    have same : VoiceSession path shared.world ↔ VoiceSession path t.shared.world := by
      rcases moved with ⟨_, armed, session⟩ | ⟨_, world⟩
      · by_cases was : t.shared.world.armed = true
        · simp [VoiceSession, armed, session, Machine.armsSession, was]
        · refine iff_of_false ?_ fun voice => was voice.1
          rintro ⟨_, p, member, voice, at_session⟩
          have bound := inv.sessions p member voice
          have fresh : t.armsSession = t.shared.world.session + 1 := by
            simp [Machine.armsSession, was]
          omega
      · rw [world]
    refine ⟨?_, fun _ => ?_, fun disarmed => ?_, inv.callback, ?_, inv.watchdog⟩
    · rintro request' rest serving
      obtain ⟨rfl, rfl⟩ := Serving.mk.inj (Option.some.inj serving)
      exact .plain ((orderly r).2 spoken)
    · rw [voiceSession_snoc silent, same]
      simpa only [latches, Machine.Owed, undelivered] using before
    · rcases moved with ⟨_, armed, _⟩ | ⟨_, world⟩
      · exact absurd (disarmed.symm.trans armed) Bool.false_ne_true
      · simp only [world, latches, Machine.AbortOwed] at disarmed ⊢
        exact inv.abort disarmed
    · refine sessions_snoc (fun p member voice => (inv.sessions p member voice).trans ?_) silent
      rcases moved with ⟨_, _, session⟩ | ⟨_, world⟩
      · simp only [session, Machine.armsSession]
        split <;> omega
      · rw [world]

theorem serves_disarm {next : ActionResult → Code ToolResult} {r : ActionResult}
    (inv : SessionInvariant path t)
    (at_op : t.serving = some ⟨request, .step (.action .disarm) next⟩)
    (orderly : Orderly request.Confirmed (.step (.action .disarm) next))
    (effect : Craft.vehicle.performs (.action .disarm) t.shared r shared) :
    SessionInvariant (path ++ [(t, .serves (.action .disarm) r)])
      { t with shared, serving := some ⟨request, next r⟩ } := by
  obtain ⟨latches, moved⟩ := disarm_effect effect
  have before := inv.voice (not_committing at_op (by simp))
  have silent : ¬ VoiceArm (t, .serves (.action .disarm) r) := not_voiceArm at_op (by simp)
  have disarms (accepted : r = .success) (noVoice : ¬ VoiceSession path shared.world)
      {request' : Parsed} {rest : Code ToolResult}
      (serving : some ⟨request, next r⟩ = some (Serving.mk request' rest)) :
      Phase (path ++ [(t, .serves (.action .disarm) r)]) shared.world request'.Confirmed rest := by
    obtain ⟨rfl, rfl⟩ := Serving.mk.inj (Option.some.inj serving)
    exact .clears ((orderly r).1 accepted) fun voice => noVoice ((voiceSession_snoc silent).mp voice)
  rcases moved with ⟨accepted, armed, world⟩ | ⟨accepted, disarmed, world⟩ | ⟨refused, world⟩
  · have noVoice : ¬ VoiceSession path shared.world := by
      rw [world, voiceSession_become inv.sessions]
      simp
    have falling : false ∈ shared.world.undelivered := by
      rw [world, owed_become]
      exact .inl rfl
    refine ⟨disarms accepted noVoice, fun _ => ?_, fun _ => .inr (.inl falling), inv.callback, ?_,
      inv.watchdog⟩
    · rw [voiceSession_snoc silent]
      exact iff_of_false noVoice fun kept => kept.2 (.inl falling)
    · rw [world]
      exact sessions_snoc inv.sessions silent
  · have noVoice : ¬ VoiceSession path shared.world := by
      rw [world]
      exact fun voice => Bool.false_ne_true (disarmed.symm.trans voice.1)
    refine ⟨disarms accepted noVoice, fun _ => ?_, ?_, inv.callback, ?_, inv.watchdog⟩
    · rw [voiceSession_snoc silent]
      simpa only [world, latches, Machine.Owed] using before
    · simpa only [world, latches, Machine.AbortOwed] using inv.abort
    · rw [world]
      exact sessions_snoc inv.sessions silent
  · refine ⟨?_, fun _ => ?_, ?_, inv.callback, ?_, inv.watchdog⟩
    · rintro request' rest serving
      obtain ⟨rfl, rfl⟩ := Serving.mk.inj (Option.some.inj serving)
      exact .plain ((orderly r).2 refused)
    · rw [voiceSession_snoc silent]
      simpa only [world, latches, Machine.Owed] using before
    · simpa only [world, latches, Machine.AbortOwed] using inv.abort
    · rw [world]
      exact sessions_snoc inv.sessions silent

/-- One operation of the request in progress, by the phase it is in. -/
theorem serves (inv : SessionInvariant path t)
    (at_op : t.serving = some ⟨request, .step op next⟩)
    (effect : Craft.vehicle.performs op t.shared r shared)
    (inTime : StoresInTime path (t, .serves op r)) :
    SessionInvariant (path ++ [(t, .serves op r)])
      { t with shared, serving := some ⟨request, next r⟩ } := by
  cases inv.phase at_op with
  | orderly orderly =>
    by_cases plain : op.plain = true
    · exact inv.serves_plain at_op effect plain inTime (.orderly (orderly.plain_next plain r))
    · cases op with
      | action a =>
        cases a with
        | arm => exact inv.serves_arm at_op orderly effect
        | disarm => exact inv.serves_disarm at_op orderly effect
        | _ => exact absurd rfl plain
      | storeArmedWithVoice b => cases orderly
      | _ => exact absurd rfl plain
  | commits commits =>
    obtain ⟨next', same, rest⟩ := commits
    obtain ⟨rfl, same⟩ := Program.step.inj same
    obtain rfl := eq_of_heq same
    exact inv.serves_latch at_op rest effect (inTime.trans (by simp))
  | clears clears noVoice =>
    obtain ⟨next', same, rest⟩ := clears
    obtain ⟨rfl, same⟩ := Program.step.inj same
    obtain rfl := eq_of_heq same
    exact inv.serves_latch at_op rest effect (iff_of_false noVoice (by simp))
  | plain plain => exact inv.serves_plain at_op effect plain.1 inTime (.plain (plain.2 r))

/-- A step of another party that leaves world, spoken-arm latch and what is owed
alone, and is still there to clear the abort latch. -/
theorem aside {e : Label Craft} {u : Machine Craft} (inv : SessionInvariant path t)
    (silent : ¬ VoiceArm (t, e)) (serving : u.serving = t.serving)
    (world : u.shared.world = t.shared.world)
    (latch : u.shared.latches.armedWithVoice = t.shared.latches.armedWithVoice)
    (callback : u.callback = t.callback)
    (aborted : u.shared.latches.aborted = t.shared.latches.aborted)
    (watchdog : u.watchdog.All fun op => op.plain = true ∧ op.storesLatch = false) :
    SessionInvariant (path ++ [(t, e)]) u := by
  refine ⟨?_, fun waiting => ?_, ?_, callback ▸ inv.callback, ?_, watchdog⟩
  · rintro request rest busy
    rw [serving] at busy
    exact (inv.phase busy).mono fun voice => by rwa [voiceSession_snoc silent, world] at voice
  · rw [voiceSession_snoc silent]
    simpa only [world, latch, callback, Machine.Owed] using
      inv.voice fun busy => waiting (by simpa only [Machine.Committing, serving] using busy)
  · simpa only [world, aborted, callback, Machine.AbortOwed] using inv.abort
  · rw [world]
    exact sessions_snoc inv.sessions silent

theorem moves {armed : Bool} (inv : SessionInvariant path t) :
    SessionInvariant (path ++ [(t, .moved (t.shared.world.become armed))])
      { t with shared := { t.shared with world := t.shared.world.become armed } } := by
  have silent : ¬ VoiceArm (t, .moved (t.shared.world.become armed)) := by
    rintro ⟨_, same⟩
    cases same
  have voiced : VoiceSession path (t.shared.world.become armed) ↔
      armed = true ∧ VoiceSession path t.shared.world := voiceSession_become inv.sessions
  refine ⟨?_, fun waiting => ?_, fun disarmed => ?_, inv.callback, ?_, inv.watchdog⟩
  · rintro request rest busy
    exact (inv.phase busy).mono fun voice => (voiced.mp ((voiceSession_snoc silent).mp voice)).2
  · rw [voiceSession_snoc silent, voiced]
    have before := inv.voice fun busy => waiting busy
    simp only [Machine.Owed, owed_become] at before ⊢
    cases armed with
    | true => simpa using before
    | false => simp
  · cases armed with
    | true => cases disarmed
    | false => exact .inr (.inl (owed_become.mpr (.inl rfl)))
  · refine sessions_snoc (fun p member voice => (inv.sessions p member voice).trans ?_) silent
    simp only [Craft.become]
    split <;> omega

/-- The next value is handed over: a falling edge is now owed by the callback. -/
theorem delivers {armed : Bool} {world : Craft} (inv : SessionInvariant path t)
    (idle : t.callback = .done ())
    (reported : Craft.script.report? armed t.shared.world = some world) :
    SessionInvariant (path ++ [(t, .delivered armed)])
      { t with shared := { t.shared with world }, callback := armedCallback armed } := by
  have silent : ¬ VoiceArm (t, .delivered armed) := by
    rintro ⟨_, same⟩
    cases same
  obtain ⟨rest, waiting, rfl⟩ : ∃ rest, t.shared.world.undelivered = armed :: rest ∧
      world = { t.shared.world with undelivered := rest } := by
    simp only [Craft.script] at reported
    split at reported
    · cases reported
    · rename_i b rest waiting
      split at reported
      · rename_i same
        exact ⟨rest, same ▸ waiting, (Option.some.inj reported).symm⟩
      · cases reported
  have notOwing : ¬ t.callback = armedCallback false := by
    rw [idle]
    exact fun same => by cases same
  refine ⟨?_, fun busy => ?_, fun disarmed => ?_, ?_, sessions_snoc inv.sessions silent,
    inv.watchdog⟩
  · rintro request rest busy
    exact (inv.phase busy).mono fun voice => (voiceSession_snoc silent).mp voice
  · rw [voiceSession_snoc silent]
    have before := inv.voice fun committing => busy committing
    simp only [Machine.Owed, waiting, notOwing, or_false, List.mem_cons] at before ⊢
    apply before.trans
    cases armed with
    | true =>
      have returned : armedCallback true ≠ armedCallback false := by
        intro same
        cases same
      simp [returned]
    | false => simp
  · have before := inv.abort disarmed
    simp only [Machine.AbortOwed, waiting, idle, List.mem_cons] at before ⊢
    cases armed with
    | true =>
      have returned : armedCallback true = .done () := rfl
      simpa [returned] using before
    | false =>
      have owing : armedCallback false ≠ .done () := by
        intro same
        cases same
      exact .inr (.inr owing)
  · cases armed with
    | true => exact .inr (.inr rfl)
    | false => exact .inl rfl

theorem callsBack {op : Op} {next : op.Answer → Code Unit} {r : op.Answer}
    (inv : SessionInvariant path t) (at_op : t.callback = .step op next)
    (effect : Craft.vehicle.performs op t.shared r shared) :
    SessionInvariant (path ++ [(t, .callsBack op r)])
      { t with shared, callback := next r } := by
  have silent : ¬ VoiceArm (t, .callsBack op r) := by
    rintro ⟨_, same⟩
    cases same
  rcases inv.callback with first | second | last
  · -- the spoken-arm latch is cleared, the abort latch is still owed
    obtain ⟨rfl, same⟩ := Program.step.inj (at_op.symm.trans first)
    obtain rfl := eq_of_heq same
    obtain rfl := effect
    have owed : t.Owed := .inr first
    refine ⟨?_, fun busy => ?_, fun _ => ?_, .inr (.inl rfl), sessions_snoc inv.sessions silent,
      inv.watchdog⟩
    · rintro request rest busy
      exact (inv.phase busy).mono fun voice => (voiceSession_snoc silent).mp voice
    · rw [voiceSession_snoc silent]
      have before := inv.voice fun committing => busy committing
      exact iff_of_false (fun voice => (before.mp voice).2 owed) (by simp)
    · exact .inr (.inr fun same => by cases same)
  · obtain ⟨rfl, same⟩ := Program.step.inj (at_op.symm.trans second)
    obtain rfl := eq_of_heq same
    obtain rfl := effect
    refine ⟨?_, fun busy => ?_, fun _ => .inl rfl, .inr (.inr rfl),
      sessions_snoc inv.sessions silent, inv.watchdog⟩
    · rintro request rest busy
      exact (inv.phase busy).mono fun voice => (voiceSession_snoc silent).mp voice
    · rw [voiceSession_snoc silent]
      have before := inv.voice fun committing => busy committing
      have cleared : ¬ t.callback = armedCallback false := by
        rw [second]
        exact fun same => by cases same
      have returned : (Program.done r : Code Unit) ≠ armedCallback false := by
        intro same
        cases same
      simpa [Machine.Owed, cleared, returned] using before
  · rw [last] at at_op
    cases at_op

theorem step (inv : SessionInvariant path t) (inTime : StoresInTime path (t, e))
    (moved : Next Craft.vehicle cfg t e u) : SessionInvariant (path ++ [(t, e)]) u := by
  cases moved with
  | @received request idle =>
    have silent : ¬ VoiceArm (t, .received request) := by
      rintro ⟨_, same⟩
      cases same
    refine ⟨?_, fun _ => ?_, inv.abort, inv.callback, sessions_snoc inv.sessions silent,
      inv.watchdog⟩
    · rintro request rest serving
      obtain ⟨rfl, rfl⟩ := Serving.mk.inj (Option.some.inj serving)
      exact .orderly (handle_orderly _ _ _)
    · rw [voiceSession_snoc silent]
      apply inv.voice
      rintro ⟨request, rest, serving, _⟩
      rw [idle] at serving
      cases serving
  | serves at_op effect => exact inv.serves at_op effect inTime
  | @replied request result ended =>
    have silent : ¬ VoiceArm (t, .replied) := by
      rintro ⟨_, same⟩
      cases same
    have noVoice : ∀ {request rest}, none = some (Serving.mk request rest) →
        Phase (path ++ [(t, .replied)]) t.shared.world request.Confirmed rest := by
      rintro request rest ⟨⟩
    refine ⟨noVoice, fun _ => ?_, inv.abort, inv.callback, sessions_snoc inv.sessions silent,
      inv.watchdog⟩
    rw [voiceSession_snoc silent]
    apply inv.voice
    rintro ⟨request, rest, serving, next, rfl, _⟩
    rw [ended] at serving
    cases serving
  | @polls w slept =>
    have polled : (heartbeatPoll cfg w).All fun op => op.plain = true ∧ op.storesLatch = false :=
      heartbeatPoll_all cfg w ⟨rfl, rfl⟩ ⟨rfl, rfl⟩ ⟨rfl, rfl⟩
        (by cases cfg.hbAction <;> exact ⟨rfl, rfl⟩)
    refine inv.aside ?_ rfl rfl rfl rfl rfl polled
    rintro ⟨_, same⟩
    cases same
  | @watches op next r shared at_op effect =>
    have all := inv.watchdog
    rw [at_op] at all
    obtain ⟨world, latch, aborted⟩ := plain_effect all.1.1 effect
    refine inv.aside ?_ rfl world latch rfl ?_ (all.2 r)
    · rintro ⟨_, same⟩
      cases same
    · rcases aborted with ⟨b, rfl, _⟩ | ⟨_, kept⟩
      · exact absurd all.1.2 (by simp [Op.storesLatch])
      · exact kept
  | delivered idle reported => exact inv.delivers idle reported
  | callsBack at_op effect => exact inv.callsBack at_op effect
  | @moved world moves =>
    simp only [Craft.vehicle, Script.vehicle, Craft.script, Bool.or_eq_true, decide_eq_true_eq]
      at moves
    rcases moves with rfl | rfl <;> exact inv.moves

end SessionInvariant

/-- In a run whose stores are in time, the latches agree with the vehicle
whenever nothing is in progress. -/
theorem session_latches_agree (cfg : Settings) (w : Craft)
    {path : List (Machine Craft × Label Craft)} {t : Machine Craft}
    (run : Run (Next Craft.vehicle cfg) (Machine.initial w) path t)
    (inTime : ∀ before p after, path = before ++ p :: after → StoresInTime before p)
    (quiescent : t.Quiescent) :
    (t.shared.latches.armedWithVoice = true ↔ VoiceSession path t.shared.world) ∧
      (t.shared.world.armed = false → t.shared.latches.aborted = false) := by
  have inv := run.invariant_history StoresInTime
    (fun inv inTime moved => SessionInvariant.step inv inTime moved)
    (SessionInvariant.initial w) inTime
  have notCommitting : ¬ t.Committing := by
    rintro ⟨request, rest, serving, _⟩
    rw [quiescent.idle] at serving
    cases serving
  have notOwed : ¬ t.Owed := by
    rintro (undelivered | calling)
    · rw [quiescent.delivered] at undelivered
      cases undelivered
    · rw [quiescent.returned] at calling
      cases calling
  refine ⟨?_, fun disarmed => ?_⟩
  · rw [inv.voice notCommitting]
    simp [notOwed]
  · rcases inv.abort disarmed with clear | undelivered | calling
    · exact clear
    · rw [quiescent.delivered] at undelivered
      cases undelivered
    · exact absurd quiescent.returned calling

/-! Two races and two runs without one, replayed. -/

def quiescent? (t : Machine Craft) : Bool :=
  t.serving.isNone && (t.callback matches .done _) && t.shared.world.undelivered.isEmpty

theorem quiescent_of_check {t : Machine Craft} (checked : quiescent? t = true) : t.Quiescent := by
  simp only [quiescent?, Bool.and_eq_true, Option.isNone_iff_eq_none, List.isEmpty_iff] at checked
  obtain ⟨⟨idle, returned⟩, delivered⟩ := checked
  refine ⟨idle, ?_, delivered⟩
  cases callback : t.callback with
  | done u => rfl
  | raise e => simp [callback] at returned
  | step op next => simp [callback] at returned

/-- A spoken arm whose vehicle disarms, with the callback run, before the commit. -/
def lateCommit : List (Label Craft) := [
  .received (.value (.object [("name", .string "arm"),
    ("args", .object [("voice_confirmed", .boolean true)])])),
  .serves .loadAborted false,
  .serves .loadArmedWithVoice false,
  .serves (.action .arm) .success,
  .moved ⟨false, 1, [true, false]⟩,
  .delivered true,
  .delivered false,
  .callsBack (.storeArmedWithVoice false) (),
  .callsBack (.storeAborted false) (),
  .serves (.storeArmedWithVoice true) (),
  .replied]

/-- An abort whose vehicle touches down, with the callback run, before the store. -/
def lateAbort : List (Label Craft) := [
  .received (.value (.object [("name", .string "abort")])),
  .serves .loadAborted false,
  .serves .inAir true,
  .moved ⟨false, 1, [false]⟩,
  .delivered false,
  .callsBack (.storeArmedWithVoice false) (),
  .callsBack (.storeAborted false) (),
  .serves (.storeAborted true) (),
  .serves (.action .land) .success,
  .replied]

/-- Both latches can be left hot on a disarmed vehicle with nothing left to clear them. -/
theorem latches_left_hot :
    (∃ path t, Run (Next Craft.vehicle {}) (Machine.initial ⟨false, 0, []⟩) path t ∧ t.Quiescent ∧
      t.shared.latches.armedWithVoice = true ∧ ¬ VoiceSession path t.shared.world) ∧
    (∃ path t, Run (Next Craft.vehicle {}) (Machine.initial ⟨true, 1, []⟩) path t ∧ t.Quiescent ∧
      t.shared.world.armed = false ∧ t.shared.latches.aborted = true) := by
  constructor
  · have found : (replay (Craft.script.step? {}) (Machine.initial ⟨false, 0, []⟩) lateCommit).any
        (fun ran => quiescent? ran.2 && ran.2.shared.latches.armedWithVoice &&
          !ran.2.shared.world.armed) = true := by decide +kernel
    obtain ⟨⟨path, t⟩, ran, hot⟩ := (Option.any_eq_true _ _).mp found
    simp only [Bool.and_eq_true, Bool.not_eq_true'] at hot
    obtain ⟨⟨quiescent, latched⟩, disarmed⟩ := hot
    refine ⟨path, t, .of_replay Script.step_sound ran, quiescent_of_check quiescent, latched, ?_⟩
    exact fun voice => Bool.false_ne_true (disarmed.symm.trans voice.1)
  · have found : (replay (Craft.script.step? {}) (Machine.initial ⟨true, 1, []⟩) lateAbort).any
        (fun ran => quiescent? ran.2 && !ran.2.shared.world.armed &&
          ran.2.shared.latches.aborted) = true := by decide +kernel
    obtain ⟨⟨path, t⟩, ran, hot⟩ := (Option.any_eq_true _ _).mp found
    simp only [Bool.and_eq_true, Bool.not_eq_true'] at hot
    obtain ⟨⟨quiescent, disarmed⟩, latched⟩ := hot
    exact ⟨path, t, .of_replay Script.step_sound ran, quiescent_of_check quiescent, disarmed, latched⟩

/-- A spoken arm that is committed before anything else happens. -/
def timelyCommit : List (Label Craft) := [
  .received (.value (.object [("name", .string "arm"),
    ("args", .object [("voice_confirmed", .boolean true)])])),
  .serves .loadAborted false,
  .serves .loadArmedWithVoice false,
  .serves (.action .arm) .success,
  .serves (.storeArmedWithVoice true) (),
  .replied,
  .delivered true]

/-- An abort in the session that it began, stored before the touchdown, and the values of the
touchdown delivered. -/
def timelyAbort : List (Label Craft) := timelyCommit ++ [
  .received (.value (.object [("name", .string "abort")])),
  .serves .loadAborted false,
  .serves .inAir true,
  .serves (.storeAborted true) (),
  .moved ⟨false, 1, [false]⟩,
  .serves (.action .land) .success,
  .replied,
  .delivered false,
  .callsBack (.storeArmedWithVoice false) (),
  .callsBack (.storeAborted false) ()]

def confirmed? (request : Parsed) : Bool :=
  match request.get.bind ToolCall.fromJson with
  | .ok c => c.name = "arm" && (c.args.valueBool "voice_confirmed" false).toOption = some true
  | .error _ => false

theorem confirmed_of_check {request : Parsed} (checked : confirmed? request = true) :
    request.Confirmed := by
  unfold confirmed? at checked
  split at checked
  · next c read =>
    simp only [Bool.and_eq_true, decide_eq_true_eq] at checked
    refine ⟨c, read, checked.1, ?_⟩
    cases said : c.args.valueBool "voice_confirmed" false with
    | error e => simp [said, Except.toOption] at checked
    | ok b => simpa [said, Except.toOption] using checked.2
  · cases checked

def voiceArm? (p : Machine Craft × Label Craft) : Bool :=
  match p.2 with
  | .serves (.action .arm) .success => p.1.serving.any (confirmed? ·.request)
  | _ => false

theorem voiceArm_of_check {p : Machine Craft × Label Craft} (checked : voiceArm? p = true) :
    VoiceArm p := by
  unfold voiceArm? at checked
  split at checked
  · next succeeded =>
    obtain ⟨⟨request, rest⟩, serving, confirmed⟩ := (Option.any_eq_true _ _).mp checked
    exact ⟨⟨request, rest, serving, confirmed_of_check confirmed⟩, succeeded⟩
  · cases checked

/-- A spoken arm is stored in the session it has begun, an abort on an armed vehicle. -/
def storesInTime? (before : List (Machine Craft × Label Craft))
    (p : Machine Craft × Label Craft) : Bool :=
  let w := p.1.shared.world
  match p.2 with
  | .serves (.storeArmedWithVoice true) _ =>
    w.armed && before.any (fun q => voiceArm? q && q.1.armsSession = w.session) &&
      !w.undelivered.contains false && (p.1.callback matches .done _)
  | .serves (.storeAborted true) _ => w.armed
  | _ => true

theorem storesInTime_of_check {before : List (Machine Craft × Label Craft)}
    {p : Machine Craft × Label Craft} (checked : storesInTime? before p = true) :
    StoresInTime before p := by
  unfold storesInTime? at checked
  unfold StoresInTime
  split at checked
  · simp only [Bool.and_eq_true, Bool.not_eq_true', List.any_eq_true, decide_eq_true_eq] at checked
    obtain ⟨⟨⟨armed, q, member, voice, same⟩, delivered⟩, returned⟩ := checked
    refine iff_of_true ⟨armed, q, member, voiceArm_of_check voice, same⟩ ?_
    rintro (undelivered | calling)
    · rw [List.contains_iff_mem.mpr undelivered] at delivered
      cases delivered
    · rw [calling] at returned
      cases returned
  · exact .inl checked
  · trivial

def allInTime? (path : List (Machine Craft × Label Craft)) : Bool :=
  path.zipIdx.all fun (p, i) => storesInTime? (path.take i) p

theorem allInTime_of_check {path : List (Machine Craft × Label Craft)}
    (checked : allInTime? path = true) (before : List (Machine Craft × Label Craft))
    (p : Machine Craft × Label Craft) (after : List (Machine Craft × Label Craft))
    (split : path = before ++ p :: after) : StoresInTime before p := by
  have here : (p, before.length) ∈ path.zipIdx := by
    rw [List.mk_mem_zipIdx_iff_getElem?, split]
    simp
  have stored : storesInTime? (path.take before.length) p = true :=
    List.all_eq_true.mp checked _ here
  rw [split, List.take_left] at stored
  exact storesInTime_of_check stored

/-- The latch of the spoken arm is set while its session goes on, and both are clear after
the touchdown. -/
theorem session_latches_agree_timely :
    (∃ path t, Run (Next Craft.vehicle {}) (Machine.initial ⟨false, 0, []⟩) path t ∧
      t.shared.latches.armedWithVoice = true ∧ VoiceSession path t.shared.world) ∧
    ∃ path t, Run (Next Craft.vehicle {}) (Machine.initial ⟨false, 0, []⟩) path t ∧
      t.shared.latches.aborted = false ∧
      (t.shared.latches.armedWithVoice = true ↔ VoiceSession path t.shared.world) := by
  have agrees {labels : List (Label Craft)} {armed : Bool}
      (found : (replay (Craft.script.step? {}) (Machine.initial ⟨false, 0, []⟩) labels).any
        (fun ran => allInTime? ran.1 && quiescent? ran.2 && ran.2.shared.world.armed == armed &&
          ran.2.shared.latches.armedWithVoice == armed) = true) :
      ∃ path t, Run (Next Craft.vehicle {}) (Machine.initial ⟨false, 0, []⟩) path t ∧
        t.shared.world.armed = armed ∧ t.shared.latches.armedWithVoice = armed ∧
        (t.shared.latches.armedWithVoice = true ↔ VoiceSession path t.shared.world) ∧
        (t.shared.world.armed = false → t.shared.latches.aborted = false) := by
    obtain ⟨⟨path, t⟩, ran, checked⟩ := (Option.any_eq_true _ _).mp found
    simp only [Bool.and_eq_true, beq_iff_eq] at checked
    obtain ⟨⟨⟨inTime, quiescent⟩, armed⟩, latched⟩ := checked
    have run := Run.of_replay Script.step_sound ran
    exact ⟨path, t, run, armed, latched,
      session_latches_agree {} _ run (allInTime_of_check inTime) (quiescent_of_check quiescent)⟩
  constructor
  · obtain ⟨path, t, run, -, latched, voice, -⟩ :=
      @agrees timelyCommit true (by decide +kernel)
    exact ⟨path, t, run, latched, voice.mp latched⟩
  · obtain ⟨path, t, run, disarmed, -, voice, clear⟩ :=
      @agrees timelyAbort false (by decide +kernel)
    exact ⟨path, t, run, clear disarmed, voice⟩

end Lexaire.Bridge
