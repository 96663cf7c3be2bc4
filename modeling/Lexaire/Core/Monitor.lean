import Lexaire.Core.Program
import Lexaire.Core.Transition
import Mathlib.Logic.Function.Basic

/-! Monitors: threads around one lock with a condition variable. What the lock guards
changes by deterministic operations, everything else is outside. Disciplined threads
touch the guarded state under the lock only. -/
namespace Monitor
open Atomic Transition

inductive Call (Op Out : Type) where
  | acquire
  | release
  | wait
  | notify
  | notifyAll
  | guarded (op : Op)
  | free (op : Out)

inductive Sleep where
  | awake | parked | roused
deriving DecidableEq

variable {ι β Op Out ε σ τ δ : Type} {A : Op → Type} {B : Out → Type}

@[reducible] def Call.Answer (A : Op → Type) (B : Out → Type) : Call Op Out → Type
  | .acquire | .release | .wait | .notify | .notifyAll => Unit
  | .guarded op => A op
  | .free op => B op

abbrev Code (A : Op → Type) (B : Out → Type) (ε : Type) :=
  Program (Call Op Out) (Call.Answer A B) ε Unit

/-- Whether the lock is to be held at a call, and whether it is held after it. -/
def Call.held : Call Op Out → Bool
  | .acquire | .free _ => false
  | _ => true

def Call.leaves : Call Op Out → Bool
  | .release | .free _ => false
  | _ => true

/-- A call that returns with the lock just taken. -/
def Call.enters : Call Op Out → Bool
  | .acquire | .wait => true
  | _ => false

/-- Guarded operations come under the lock and free ones outside of it, and a thread
does not end in possession. -/
def Disciplined : Bool → Code A B ε → Prop
  | held, .done _ | held, .raise _ => held = false
  | held, .step call next => call.held = held ∧ ∀ r, Disciplined call.leaves (next r)

/-! ## Critical sections -/

/-- What a thread that holds the lock has left to do when it gives it up, and the
guarded state then. -/
def leave (run : (op : Op) → σ → A op × σ) : Code A B ε → σ → Code A B ε × σ
  | .step (.guarded op) next, s => leave run (next (run op s).1) (run op s).2
  | .step .notify next, s => leave run (next ()) s
  | .step .notifyAll next, s => leave run (next ()) s
  | p, s => (p, s)

/-- Whether it notifies before that. -/
def rings (run : (op : Op) → σ → A op × σ) : Code A B ε → σ → Bool
  | .step (.guarded op) next, s => rings run (next (run op s).1) (run op s).2
  | .step .notify _, _ | .step .notifyAll _, _ => true
  | _, _ => false

/-- After a release; a thread that waits keeps its place. -/
def settle : Code A B ε → Code A B ε
  | .step .release next => next ()
  | p => p

section
variable (run : (op : Op) → σ → A op × σ) (s : σ)

@[simp] theorem leave_guarded (op : Op) (next : A op → Code A B ε) :
    leave run (.step (.guarded op) next) s = leave run (next (run op s).1) (run op s).2 := rfl

@[simp] theorem leave_notify (next : Unit → Code A B ε) :
    leave run (.step .notify next) s = leave run (next ()) s := rfl

@[simp] theorem leave_notifyAll (next : Unit → Code A B ε) :
    leave run (.step .notifyAll next) s = leave run (next ()) s := rfl

@[simp] theorem leave_release (next : Unit → Code A B ε) :
    leave run (.step .release next) s = (.step .release next, s) := rfl

@[simp] theorem leave_wait (next : Unit → Code A B ε) :
    leave run (.step .wait next) s = (.step .wait next, s) := rfl

@[simp] theorem rings_guarded (op : Op) (next : A op → Code A B ε) :
    rings run (.step (.guarded op) next) s = rings run (next (run op s).1) (run op s).2 := rfl

@[simp] theorem rings_notify (next : Unit → Code A B ε) :
    rings run (.step .notify next) s = true := rfl

@[simp] theorem rings_notifyAll (next : Unit → Code A B ε) :
    rings run (.step .notifyAll next) s = true := rfl

@[simp] theorem rings_release (next : Unit → Code A B ε) :
    rings run (.step .release next) s = false := rfl

@[simp] theorem rings_wait (next : Unit → Code A B ε) :
    rings run (.step .wait next) s = false := rfl

@[simp] theorem settle_release (next : Unit → Code A B ε) :
    settle (.step .release next) = next () := rfl

@[simp] theorem settle_wait (next : Unit → Code A B ε) :
    settle (.step .wait next) = .step .wait next := rfl

end

/-- The statements of a section, and how it goes on after them or after an exception. -/
def under {α : Type} : Program Op A ε α → (α → Code A B ε) → (ε → Code A B ε) → Code A B ε
  | .done a, f, _ => f a
  | .raise e, _, g => g e
  | .step op next, f, g => .step (.guarded op) fun r => under (next r) f g

/-! ## The machine -/

/-- What the threads may do: the code of their jobs, the guarded operations, the free
ones of each thread, and what moves by itself outside. -/
structure Threads (ι β : Type) (A : Op → Type) (B : Out → Type) (ε σ τ δ : Type) where
  code : β → Code A B ε
  begins : ι → β → Prop
  run : (op : Op) → σ → A op × σ
  performs : ι → (op : Out) → τ → B op → τ → Prop
  drifts : τ → δ → τ → Prop

/-- A thread without a job is between two of them; an exception ends it. -/
structure Machine (ι β : Type) (A : Op → Type) (B : Out → Type) (ε σ τ : Type) where
  owner : Option ι := none
  sleep : ι → Sleep := fun _ => .awake
  thread : ι → Option (β × Code A B ε) := fun _ => none
  shared : σ
  outside : τ

inductive Label (ι β : Type) (B : Out → Type) (Op δ : Type) where
  | begins (i : ι) (b : β)
  | finishes (i : ι)
  | acquires (i : ι) (b : β)
  | releases (i : ι)
  | parks (i : ι)
  | timesOut (i : ι)
  | resumes (i : ι) (b : β)
  | notifies (i : ι)
  | guards (i : ι) (op : Op)
  | frees (i : ι) (op : Out) (r : B op)
  | drifts (d : δ)

variable [DecidableEq ι]

namespace Machine

/-- The thread goes on with what is left of its job. -/
def proceed (m : Machine ι β A B ε σ τ) (i : ι) (b : β) (p : Code A B ε) : Machine ι β A B ε σ τ :=
  { m with thread := Function.update m.thread i (some (b, p)) }

def slumber (m : Machine ι β A B ε σ τ) (i : ι) (sleep : Sleep) : Machine ι β A B ε σ τ :=
  { m with sleep := Function.update m.sleep i sleep }

/-- `notify_all`. -/
def rouse (m : Machine ι β A B ε σ τ) : Machine ι β A B ε σ τ :=
  { m with sleep := fun j => if m.sleep j = .parked then .roused else m.sleep j }

end Machine

/-- One step of one thread. A notified thread, or one whose wait has timed out, takes the
lock again before it goes on; which of several waiting threads `notify` wakes is left open. -/
inductive Next (w : Threads ι β A B ε σ τ δ) :
    Machine ι β A B ε σ τ → Label ι β B Op δ → Machine ι β A B ε σ τ → Prop where
  | begins {m : Machine ι β A B ε σ τ} {i : ι} {b : β} (idle : m.thread i = none)
      (may : w.begins i b) : Next w m (.begins i b) (m.proceed i b (w.code b))
  | finishes {m : Machine ι β A B ε σ τ} {i : ι} {b : β} (ended : m.thread i = some (b, .done ())) :
      Next w m (.finishes i) { m with thread := Function.update m.thread i none }
  | acquires {m : Machine ι β A B ε σ τ} {i : ι} {b : β} {next : Unit → Code A B ε}
      (at_call : m.thread i = some (b, .step .acquire next)) (unowned : m.owner = none) :
      Next w m (.acquires i b) { m.proceed i b (next ()) with owner := some i }
  | releases {m : Machine ι β A B ε σ τ} {i : ι} {b : β} {next : Unit → Code A B ε}
      (at_call : m.thread i = some (b, .step .release next)) (owned : m.owner = some i) :
      Next w m (.releases i) { m.proceed i b (next ()) with owner := none }
  | parks {m : Machine ι β A B ε σ τ} {i : ι} {b : β} {next : Unit → Code A B ε}
      (at_call : m.thread i = some (b, .step .wait next)) (owned : m.owner = some i)
      (awake : m.sleep i = .awake) :
      Next w m (.parks i) { m.slumber i .parked with owner := none }
  | timesOut {m : Machine ι β A B ε σ τ} {i : ι} (parked : m.sleep i = .parked) :
      Next w m (.timesOut i) (m.slumber i .roused)
  | resumes {m : Machine ι β A B ε σ τ} {i : ι} {b : β} {next : Unit → Code A B ε}
      (at_call : m.thread i = some (b, .step .wait next)) (roused : m.sleep i = .roused)
      (unowned : m.owner = none) :
      Next w m (.resumes i b) { (m.proceed i b (next ())).slumber i .awake with owner := some i }
  | notifies {m : Machine ι β A B ε σ τ} {i j : ι} {b : β} {next : Unit → Code A B ε}
      (at_call : m.thread i = some (b, .step .notify next)) (owned : m.owner = some i)
      (parked : m.sleep j = .parked) :
      Next w m (.notifies i) ((m.proceed i b (next ())).slumber j .roused)
  | notifiesNobody {m : Machine ι β A B ε σ τ} {i : ι} {b : β} {next : Unit → Code A B ε}
      (at_call : m.thread i = some (b, .step .notify next)) (owned : m.owner = some i)
      (nobody : ∀ j, m.sleep j ≠ .parked) : Next w m (.notifies i) (m.proceed i b (next ()))
  | notifiesAll {m : Machine ι β A B ε σ τ} {i : ι} {b : β} {next : Unit → Code A B ε}
      (at_call : m.thread i = some (b, .step .notifyAll next)) (owned : m.owner = some i) :
      Next w m (.notifies i) (m.proceed i b (next ())).rouse
  | guards {m : Machine ι β A B ε σ τ} {i : ι} {b : β} {op : Op} {next : A op → Code A B ε}
      (at_call : m.thread i = some (b, .step (.guarded op) next)) :
      Next w m (.guards i op)
        { m.proceed i b (next (w.run op m.shared).1) with shared := (w.run op m.shared).2 }
  | frees {m : Machine ι β A B ε σ τ} {i : ι} {b : β} {op : Out} {next : B op → Code A B ε}
      {r : B op} {outside : τ} (at_call : m.thread i = some (b, .step (.free op) next))
      (effect : w.performs i op m.outside r outside) :
      Next w m (.frees i op r) { m.proceed i b (next r) with outside }
  | drifts {m : Machine ι β A B ε σ τ} {d : δ} {outside : τ} (moved : w.drifts m.outside d outside) :
      Next w m (.drifts d) { m with outside }

/-! ## Mutual exclusion -/

/-- A thread by itself: whether it owns the lock, whether it sleeps, and its job. -/
inductive Standing : Bool → Sleep → Option (β × Code A B ε) → Prop where
  | idle : Standing false .awake none
  | active {mine : Bool} {b : β} {p : Code A B ε} (disciplined : Disciplined mine p) :
      Standing mine .awake (some (b, p))
  | asleep {sleep : Sleep} {b : β} {next : Unit → Code A B ε} (away : sleep ≠ .awake)
      (disciplined : ∀ r, Disciplined true (next r)) :
      Standing false sleep (some (b, .step .wait next))

namespace Standing
variable {mine : Bool} {sleep : Sleep} {b : β}

theorem disciplined {p : Code A B ε} (standing : Standing mine .awake (some (b, p))) :
    Disciplined mine p := by
  cases standing with
  | active disciplined => exact disciplined
  | asleep away => exact absurd rfl away

/-- A thread at any call but `wait` is awake. -/
theorem awake {call : Call Op Out} {next : Call.Answer A B call → Code A B ε}
    (standing : Standing mine sleep (some (b, .step call next))) (other : call ≠ .wait) :
    sleep = .awake := by
  cases standing with
  | active => rfl
  | asleep => exact absurd rfl other

theorem asleep' {thread : Option (β × Code A B ε)} (standing : Standing mine sleep thread)
    (away : sleep ≠ .awake) : mine = false ∧ ∃ b next, thread = some (b, .step .wait next) ∧
      ∀ r, Disciplined true (next r) := by
  cases standing with
  | idle => exact absurd rfl away
  | active => exact absurd rfl away
  | asleep _ disciplined => exact ⟨rfl, _, _, rfl, disciplined⟩

theorem owner {thread : Option (β × Code A B ε)} (standing : Standing true sleep thread) :
    sleep = .awake ∧ ∃ b p, thread = some (b, p) ∧ Disciplined true p := by
  cases standing with
  | active disciplined => exact ⟨rfl, _, _, rfl, disciplined⟩

end Standing

def Machine.Sound (m : Machine ι β A B ε σ τ) : Prop :=
  ∀ i, Standing (decide (m.owner = some i)) (m.sleep i) (m.thread i)

variable {w : Threads ι β A B ε σ τ δ} {m m' : Machine ι β A B ε σ τ} {e : Label ι β B Op δ}

namespace Machine.Sound

theorem call (sound : m.Sound) {i : ι} {b : β} {call : Call Op Out}
    {next : Call.Answer A B call → Code A B ε} (at_call : m.thread i = some (b, .step call next))
    (other : call ≠ .wait) :
    m.sleep i = .awake ∧ call.held = decide (m.owner = some i) ∧
      ∀ r, Disciplined call.leaves (next r) := by
  have standing := sound i
  rw [at_call] at standing
  have awake := standing.awake other
  rw [awake] at standing
  exact ⟨awake, standing.disciplined⟩

/-- The thread that moves, while the others stand as before. -/
theorem of_mover (sound : m.Sound) {i : ι}
    (mover : Standing (decide (m'.owner = some i)) (m'.sleep i) (m'.thread i))
    (others : ∀ j, j ≠ i → (m'.owner = some j ↔ m.owner = some j) ∧ m'.sleep j = m.sleep j ∧
      m'.thread j = m.thread j) : m'.Sound := by
  intro j
  by_cases same : j = i
  · exact same ▸ mover
  · obtain ⟨owner, sleep, thread⟩ := others j same
    rw [sleep, thread, decide_eq_decide.mpr owner]
    exact sound j

/-- A sleeping thread is roused. -/
theorem slumber (sound : m.Sound) {j : ι} (parked : m.sleep j = .parked) :
    (m.slumber j .roused).Sound := by
  refine sound.of_mover (i := j) ?_ fun k other => ⟨Iff.rfl, Function.update_of_ne other _ _, rfl⟩
  have standing := sound j
  rw [parked] at standing
  obtain ⟨mine, b, next, at_wait, disciplined⟩ := standing.asleep' Sleep.noConfusion
  change Standing (decide (m.owner = some j)) (Function.update m.sleep j .roused j) (m.thread j)
  rw [mine, at_wait, Function.update_self]
  exact .asleep Sleep.noConfusion disciplined

theorem rouse (sound : m.Sound) : m.rouse.Sound := by
  intro j
  have standing := sound j
  change Standing (decide (m.owner = some j)) (if m.sleep j = .parked then .roused else m.sleep j)
    (m.thread j)
  split
  · next parked =>
    rw [parked] at standing
    obtain ⟨mine, b, next, at_wait, disciplined⟩ := standing.asleep' Sleep.noConfusion
    rw [mine, at_wait]
    exact .asleep Sleep.noConfusion disciplined
  · exact standing

/-- A thread that is awake goes on, with the lock taken, kept or given up. -/
theorem proceed (sound : m.Sound) {i : ι} {b : β} {p : Code A B ε} (owner : Option ι)
    (awake : m.sleep i = .awake) (disciplined : Disciplined (decide (owner = some i)) p)
    (others : ∀ j, j ≠ i → (owner = some j ↔ m.owner = some j)) :
    Machine.Sound { m.proceed i b p with owner } := by
  refine sound.of_mover (i := i) ?_ fun j other => ⟨others j other, rfl, Function.update_of_ne other _ _⟩
  change Standing (decide (owner = some i)) (m.sleep i) (Function.update m.thread i (some (b, p)) i)
  rw [awake, Function.update_self]
  exact .active disciplined

/-- A thread between two jobs does not own the lock. -/
theorem not_owner_of_idle (sound : m.Sound) {i : ι} (idle : m.thread i = none) :
    m.owner ≠ some i := by
  intro owned
  have standing := sound i
  rw [decide_eq_true owned, idle] at standing
  obtain ⟨-, b, p, same, -⟩ := standing.owner
  cases same

theorem not_owner_of_ended (sound : m.Sound) {i : ι} {b : β}
    (ended : m.thread i = some (b, .done ())) : m.owner ≠ some i := by
  intro owned
  have standing := sound i
  rw [decide_eq_true owned, ended] at standing
  obtain ⟨-, b, p, same, disciplined⟩ := standing.owner
  cases same
  cases disciplined

end Machine.Sound

theorem sound_initial (s : σ) (t : τ) :
    Machine.Sound ({ shared := s, outside := t } : Machine ι β A B ε σ τ) :=
  fun _ => .idle

theorem sound_next (codes : ∀ i b, w.begins i b → Disciplined false (w.code b)) (sound : m.Sound)
    (moved : Next w m e m') : m'.Sound := by
  cases moved with
  | @begins i b idle may =>
    have standing := sound i
    rw [idle] at standing
    generalize awake : m.sleep i = sleep at standing
    generalize mine : decide (m.owner = some i) = owns at standing
    cases standing with
    | idle =>
      refine sound.proceed m.owner awake ?_ fun _ _ => Iff.rfl
      rw [mine]
      exact codes i b may
  | @finishes i b ended =>
    refine sound.of_mover (i := i) ?_ fun j other => ⟨Iff.rfl, rfl, Function.update_of_ne other _ _⟩
    have standing := sound i
    rw [ended] at standing
    change Standing (decide (m.owner = some i)) (m.sleep i) (Function.update m.thread i none i)
    rw [Function.update_self]
    generalize m.sleep i = sleep at standing ⊢
    generalize decide (m.owner = some i) = owns at standing ⊢
    cases standing with
    | active disciplined =>
      obtain rfl : owns = false := disciplined
      exact .idle
  | @acquires i b next at_call unowned =>
    obtain ⟨awake, -, rest⟩ := sound.call at_call (by simp)
    refine sound.proceed _ awake ?_ fun j other => ?_
    · rw [decide_eq_true rfl]
      exact rest ()
    · simp [unowned, Ne.symm other]
  | @releases i b next at_call owned =>
    obtain ⟨awake, -, rest⟩ := sound.call at_call (by simp)
    refine sound.proceed _ awake ?_ fun j other => ?_
    · rw [decide_eq_false (by simp)]
      exact rest ()
    · simp [owned, Ne.symm other]
  | @parks i b next at_call owned awake =>
    have standing := sound i
    rw [at_call, awake] at standing
    have rest := standing.disciplined.2
    refine sound.of_mover (i := i) ?_ fun j other => ⟨?_, Function.update_of_ne other _ _, rfl⟩
    · change Standing (decide (none = some i)) (Function.update m.sleep i .parked i) (m.thread i)
      rw [decide_eq_false (by simp), at_call, Function.update_self]
      exact .asleep Sleep.noConfusion rest
    · simp [owned, Ne.symm other]
  | timesOut parked => exact sound.slumber parked
  | @resumes i b next at_call roused unowned =>
    have standing := sound i
    rw [roused] at standing
    obtain ⟨-, b', next', at_wait, rest⟩ := standing.asleep' Sleep.noConfusion
    rw [at_call] at at_wait
    cases at_wait
    refine sound.of_mover (i := i) ?_ fun j other => ⟨?_, ?_, ?_⟩
    · simpa [Machine.slumber, Machine.proceed] using Standing.active (rest ())
    · simp [unowned, Ne.symm other]
    · simp [Machine.slumber, Machine.proceed, other]
    · simp [Machine.slumber, Machine.proceed, other]
  | @notifies i j b next at_call owned parked =>
    obtain ⟨awake, mine, rest⟩ := sound.call at_call (by simp)
    have apart : j ≠ i := by
      rintro rfl
      rw [awake] at parked
      cases parked
    refine Machine.Sound.slumber (m := m.proceed i b (next ())) ?_ parked
    exact sound.proceed m.owner awake (mine ▸ rest ()) fun _ _ => Iff.rfl
  | @notifiesNobody i b next at_call owned nobody =>
    obtain ⟨awake, mine, rest⟩ := sound.call at_call (by simp)
    exact sound.proceed m.owner awake (mine ▸ rest ()) fun _ _ => Iff.rfl
  | @notifiesAll i b next at_call owned =>
    obtain ⟨awake, mine, rest⟩ := sound.call at_call (by simp)
    refine Machine.Sound.rouse (m := m.proceed i b (next ())) ?_
    exact sound.proceed m.owner awake (mine ▸ rest ()) fun _ _ => Iff.rfl
  | @guards i b op next at_call =>
    obtain ⟨awake, mine, rest⟩ := sound.call at_call (by simp)
    have kept : (Call.guarded op : Call Op Out).leaves = decide (m.owner = some i) := mine
    have same := sound.proceed (b := b) m.owner awake (kept ▸ rest (w.run op m.shared).1)
      fun _ _ => Iff.rfl
    exact same
  | @frees i b op next r outside at_call effect =>
    obtain ⟨awake, mine, rest⟩ := sound.call at_call (by simp)
    have kept : (Call.free op : Call Op Out).leaves = decide (m.owner = some i) := mine
    have same := sound.proceed (b := b) m.owner awake (kept ▸ rest r) fun _ _ => Iff.rfl
    exact same
  | drifts moved => exact sound

/-- Guarded operations are performed by the owner of the lock. -/
theorem guards_owned (sound : m.Sound) {i : ι} {op : Op} (moved : Next w m (.guards i op) m') :
    m.owner = some i := by
  cases moved with
  | guards at_call => exact of_decide_eq_true (sound.call at_call (by simp)).2.1.symm

end Monitor
