import Lexaire.Core.Monitor

/-! Rules for monitors. The critical sections of disciplined threads are single steps, so
that what holds of the coarse machine holds of every interleaving; and where a section that
leaves something to do notifies, the thread that waits is never parked in vain. -/
namespace Monitor
open Atomic Transition

variable {ι β Op Out ε σ τ δ : Type} {A : Op → Type} {B : Out → Type} [DecidableEq ι]
  {w : Threads ι β A B ε σ τ δ} {m m' : Machine ι β A B ε σ τ} {e : Label ι β B Op δ}

/-! ## Sections -/

section
variable {α : Type} (run : (op : Op) → σ → A op × σ) (p : Program Op A ε α)
  {f : α → Code A B ε} {g : ε → Code A B ε} (s : σ)

theorem leave_under : leave run (under p f g) s =
    match (p.run run s).result with
    | .ok a => leave run (f a) (p.run run s).state
    | .error e => leave run (g e) (p.run run s).state := by
  induction p generalizing s with
  | done a => rfl
  | raise e => rfl
  | step op next ih => exact ih _ _

theorem disciplined_under (returned : ∀ a, Disciplined true (f a))
    (failed : ∀ e, Disciplined true (g e)) : Disciplined true (under p f g) := by
  induction p with
  | done a => exact returned a
  | raise e => exact failed e
  | step op next ih => exact ⟨rfl, ih⟩

end

/-- A thread goes through the statements of a section, with nobody else moving. -/
theorem under_runs {α : Type} {p : Program Op A ε α} {f : α → Code A B ε} {g : ε → Code A B ε}
    {i : ι} {b : β} (at_code : m.thread i = some (b, under p f g)) :
    ∃ path, Run (Next w) m path { m with
        thread := Function.update m.thread i (some (b, match (p.run w.run m.shared).result with
          | .ok a => f a
          | .error e => g e))
        shared := (p.run w.run m.shared).state } ∧
      ∀ q ∈ path, ∃ op, q.2 = .guards i op := by
  induction p generalizing m with
  | done a =>
    refine ⟨[], ?_, nofun⟩
    have same : Function.update m.thread i (some (b, f a)) = m.thread := by
      rw [Function.update_eq_self_iff, at_code]
      rfl
    simp only [Program.run_done, same]
    exact .nil m
  | raise e =>
    refine ⟨[], ?_, nofun⟩
    have same : Function.update m.thread i (some (b, g e)) = m.thread := by
      rw [Function.update_eq_self_iff, at_code]
      rfl
    simp only [Program.run_raise, same]
    exact .nil m
  | step op next ih =>
    have first := Run.single (Next.guards (w := w) at_code)
    obtain ⟨path, rest, guards⟩ := @ih _
      { m.proceed i b (under (next (w.run op m.shared).1) f g) with shared := (w.run op m.shared).2 }
      (Function.update_self _ _ _)
    simp only [Machine.proceed, Function.update_idem] at rest
    refine ⟨_, first.trans rest, ?_⟩
    rintro q member
    rcases List.mem_append.mp member with here | later
    · obtain rfl := List.mem_singleton.mp here
      exact ⟨op, rfl⟩
    · exact guards q later

/-! ## Critical sections as single steps -/

/-- The machine in which a thread runs from taking the lock to giving it up in one step.
A thread that waits may go on at any time. -/
structure Coarse (ι β : Type) (A : Op → Type) (B : Out → Type) (ε σ τ : Type) where
  thread : ι → Option (β × Code A B ε) := fun _ => none
  shared : σ
  outside : τ

inductive CoarseLabel (ι β : Type) (B : Out → Type) (δ : Type) where
  | begins (i : ι) (b : β)
  | finishes (i : ι)
  | enters (i : ι) (b : β)
  | frees (i : ι) (op : Out) (r : B op)
  | drifts (d : δ)

inductive Coarse.Next (w : Threads ι β A B ε σ τ δ) :
    Coarse ι β A B ε σ τ → CoarseLabel ι β B δ → Coarse ι β A B ε σ τ → Prop where
  | begins {c : Coarse ι β A B ε σ τ} {i : ι} {b : β} (idle : c.thread i = none)
      (may : w.begins i b) :
      Next w c (.begins i b) { c with thread := Function.update c.thread i (some (b, w.code b)) }
  | finishes {c : Coarse ι β A B ε σ τ} {i : ι} {b : β} (ended : c.thread i = some (b, .done ())) :
      Next w c (.finishes i) { c with thread := Function.update c.thread i none }
  | enters {c : Coarse ι β A B ε σ τ} {i : ι} {b : β} {call : Call Op Out}
      {next : Call.Answer A B call → Code A B ε} {p : Code A B ε}
      (at_call : c.thread i = some (b, .step call next)) (enters : call.enters = true)
      (resumed : ∃ r, next r = p) :
      Next w c (.enters i b)
        { c with
          thread := Function.update c.thread i (some (b, settle (leave w.run p c.shared).1))
          shared := (leave w.run p c.shared).2 }
  | frees {c : Coarse ι β A B ε σ τ} {i : ι} {b : β} {op : Out} {next : B op → Code A B ε}
      {r : B op} {outside : τ} (at_call : c.thread i = some (b, .step (.free op) next))
      (effect : w.performs i op c.outside r outside) :
      Next w c (.frees i op r)
        { c with thread := Function.update c.thread i (some (b, next r)), outside }
  | drifts {c : Coarse ι β A B ε σ τ} {d : δ} {outside : τ} (moved : w.drifts c.outside d outside) :
      Next w c (.drifts d) { c with outside }

/-- The state in which the owner of the lock has already given it up. -/
def Machine.coarse (w : Threads ι β A B ε σ τ δ) (m : Machine ι β A B ε σ τ) :
    Coarse ι β A B ε σ τ :=
  match m.owner with
  | none => ⟨m.thread, m.shared, m.outside⟩
  | some i =>
    match m.thread i with
    | none => ⟨m.thread, m.shared, m.outside⟩
    | some (b, p) =>
      ⟨Function.update m.thread i (some (b, settle (leave w.run p m.shared).1)),
        (leave w.run p m.shared).2, m.outside⟩

/-- A section counts from the moment at which the lock is taken. -/
def Label.coarse? : Label ι β B Op δ → Option (CoarseLabel ι β B δ)
  | .begins i b => some (.begins i b)
  | .finishes i => some (.finishes i)
  | .acquires i b | .resumes i b => some (.enters i b)
  | .frees i op r => some (.frees i op r)
  | .drifts d => some (.drifts d)
  | .releases _ | .parks _ | .timesOut _ | .notifies _ | .guards _ _ => none

def coarsen (w : Threads ι β A B ε σ τ δ) (path : List (Machine ι β A B ε σ τ × Label ι β B Op δ)) :
    List (Coarse ι β A B ε σ τ × CoarseLabel ι β B δ) :=
  path.filterMap fun p => p.2.coarse?.map fun e => (p.1.coarse w, e)

namespace Machine
variable (w) (m)

theorem coarse_unowned {m : Machine ι β A B ε σ τ} (unowned : m.owner = none) :
    m.coarse w = ⟨m.thread, m.shared, m.outside⟩ := by
  rw [coarse, unowned]

theorem coarse_owned {m : Machine ι β A B ε σ τ} {i : ι} {b : β} {p : Code A B ε}
    (owned : m.owner = some i) (at_job : m.thread i = some (b, p)) :
    m.coarse w = ⟨Function.update m.thread i (some (b, settle (leave w.run p m.shared).1)),
      (leave w.run p m.shared).2, m.outside⟩ := by
  simp only [coarse, owned, at_job]

/-- A thread that does not own the lock is where it is. -/
theorem coarse_thread {m : Machine ι β A B ε σ τ} {i : ι} (other : m.owner ≠ some i) :
    (m.coarse w).thread i = m.thread i := by
  cases owned : m.owner with
  | none => rw [coarse_unowned w owned]
  | some j =>
    have apart : i ≠ j := by
      rintro rfl
      exact other owned
    cases at_job : m.thread j with
    | none => simp only [coarse, owned, at_job]
    | some job =>
      rw [coarse_owned w owned at_job]
      exact Function.update_of_ne apart _ _

theorem coarse_outside : (m.coarse w).outside = m.outside := by
  rw [coarse]
  split
  · rfl
  · split <;> rfl

theorem coarse_elsewhere (outside : τ) :
    Machine.coarse w { m with outside } = ⟨(m.coarse w).thread, (m.coarse w).shared, outside⟩ := by
  cases owned : m.owner with
  | none => simp only [coarse, owned]
  | some j => cases at_job : m.thread j <;> simp only [coarse, owned, at_job]

/-- What a thread that does not own the lock does. -/
theorem coarse_aside {m : Machine ι β A B ε σ τ} {i : ι} (other : m.owner ≠ some i)
    (job : Option (β × Code A B ε)) (outside : τ) :
    Machine.coarse w { m with thread := Function.update m.thread i job, outside } =
      ⟨Function.update (m.coarse w).thread i job, (m.coarse w).shared, outside⟩ := by
  cases owned : m.owner with
  | none =>
    simp only [coarse, owned]
  | some j =>
    have apart : j ≠ i := by
      rintro rfl
      exact other owned
    cases at_job : m.thread j with
    | none => simp only [coarse, owned, at_job, Function.update_of_ne apart]
    | some held =>
      have still : Function.update m.thread i job j = some held := by
        rw [Function.update_of_ne apart, at_job]
      rw [coarse_owned w owned at_job]
      simp only [coarse, still, Function.update_comm apart]

end Machine

/-- A step is a step of the coarse machine, or none that it sees. -/
theorem coarse_next (sound : m.Sound) (moved : Next w m e m') :
    match e.coarse? with
    | some e => Coarse.Next w (m.coarse w) e (m'.coarse w)
    | none => m'.coarse w = m.coarse w := by
  have mine {i : ι} {b : β} {call : Call Op Out} {next : Call.Answer A B call → Code A B ε}
      (at_call : m.thread i = some (b, .step call next)) (other : call ≠ .wait) :
      call.held = decide (m.owner = some i) := (sound.call at_call other).2.1
  cases moved with
  | @begins i b idle may =>
    have other := sound.not_owner_of_idle idle
    have moved := Coarse.Next.begins ((m.coarse_thread w other).trans idle) may
    rw [m.coarse_outside w, ← m.coarse_aside w other] at moved
    exact moved
  | @finishes i b ended =>
    have other := sound.not_owner_of_ended ended
    have moved := Coarse.Next.finishes (w := w) ((m.coarse_thread w other).trans ended)
    rw [m.coarse_outside w, ← m.coarse_aside w other] at moved
    exact moved
  | @acquires i b next at_call unowned =>
    have moved := Coarse.Next.enters (w := w) (c := ⟨m.thread, m.shared, m.outside⟩) at_call rfl
      ⟨(), rfl⟩
    rw [Machine.coarse_unowned w unowned]
    simpa [Label.coarse?, Machine.coarse, Machine.proceed] using moved
  | @resumes i b next at_call roused unowned =>
    have moved := Coarse.Next.enters (w := w) (c := ⟨m.thread, m.shared, m.outside⟩) at_call rfl
      ⟨(), rfl⟩
    rw [Machine.coarse_unowned w unowned]
    simpa [Label.coarse?, Machine.coarse, Machine.proceed, Machine.slumber] using moved
  | @releases i b next at_call owned =>
    simp only [Label.coarse?]
    rw [Machine.coarse_owned w owned at_call]
    exact Machine.coarse_unowned w rfl
  | @parks i b next at_call owned awake =>
    simp only [Label.coarse?]
    rw [Machine.coarse_owned w owned at_call, leave_wait, settle_wait, ← at_call,
      Function.update_eq_self]
    exact Machine.coarse_unowned w rfl
  | timesOut parked => rfl
  | @notifies i j b next at_call owned parked =>
    simp only [Label.coarse?]
    rw [Machine.coarse_owned w owned at_call]
    simp [Machine.coarse, Machine.slumber, Machine.proceed, owned]
  | @notifiesNobody i b next at_call owned nobody =>
    simp only [Label.coarse?]
    rw [Machine.coarse_owned w owned at_call]
    simp [Machine.coarse, Machine.proceed, owned]
  | @notifiesAll i b next at_call owned =>
    simp only [Label.coarse?]
    rw [Machine.coarse_owned w owned at_call]
    simp [Machine.coarse, Machine.rouse, Machine.proceed, owned]
  | @guards i b op next at_call =>
    have owned : m.owner = some i := of_decide_eq_true (mine at_call (by simp)).symm
    simp only [Label.coarse?]
    rw [Machine.coarse_owned w owned at_call]
    simp [Machine.coarse, Machine.proceed, owned]
  | @frees i b op next r outside at_call effect =>
    have other : m.owner ≠ some i := of_decide_eq_false (mine at_call (by simp)).symm
    rw [← m.coarse_outside w] at effect
    have moved := Coarse.Next.frees ((m.coarse_thread w other).trans at_call) effect
    rw [← m.coarse_aside w other] at moved
    exact moved
  | @drifts d outside drifted =>
    rw [← m.coarse_outside w] at drifted
    have moved := Coarse.Next.drifts drifted
    rw [← m.coarse_elsewhere w] at moved
    exact moved

/-- Every run of disciplined threads is a run of their critical sections, in the order in
which the lock was taken. -/
theorem sections_atomic (codes : ∀ i b, w.begins i b → Disciplined false (w.code b))
    {path : List (Machine ι β A B ε σ τ × Label ι β B Op δ)} (sound : m.Sound)
    (run : Run (Next w) m path m') :
    Run (Coarse.Next w) (m.coarse w) (coarsen w path) (m'.coarse w) := by
  induction run with
  | nil => exact .nil _
  | @snoc t u path e earlier moved ih =>
    have sound := earlier.invariant_always (I := Machine.Sound)
      (fun sound moved => sound_next codes sound moved) sound
    have step := coarse_next sound moved
    cases seen : e.coarse? with
    | none =>
      rw [seen] at step
      simpa [coarsen, seen, step] using ih
    | some e' =>
      rw [seen] at step
      simpa [coarsen, seen] using ih.snoc step

/-! ## Sections end -/

/-- Whose step it is. -/
def Label.thread? : Label ι β B Op δ → Option ι
  | .begins i _ | .finishes i | .acquires i _ | .releases i | .parks i | .timesOut i | .resumes i _
  | .notifies i | .guards i _ | .frees i _ _ => some i
  | .drifts _ => none

/-- The owner of the lock comes to give it up by its own steps. -/
theorem lock_given_up (codes : ∀ i b, w.begins i b → Disciplined false (w.code b)) (sound : m.Sound)
    {i : ι} (owned : m.owner = some i) :
    ∃ path m', Run (Next w) m path m' ∧ m'.owner = none ∧ ∀ p ∈ path, p.2.thread? = some i := by
  have standing := sound i
  rw [decide_eq_true owned] at standing
  obtain ⟨awake, b, p, at_job, disciplined⟩ := standing.owner
  induction p generalizing m with
  | done a => cases disciplined
  | raise e => cases disciplined
  | step call next ih =>
    -- a step within the section, after which `i` goes on with `next r`
    have within {m' : Machine ι β A B ε σ τ} {e : Label ι β B Op δ} (r : Call.Answer A B call)
        (moved : Next w m e m') (own : e.thread? = some i) (owned : m'.owner = some i)
        (at_job : m'.thread i = some (b, next r)) :
        ∃ path m', Run (Next w) m path m' ∧ m'.owner = none ∧ ∀ p ∈ path, p.2.thread? = some i := by
      have sound := sound_next codes sound moved
      have standing := sound i
      rw [decide_eq_true owned] at standing
      obtain ⟨awake, c, q, same, disciplined⟩ := standing.owner
      obtain ⟨rfl, rfl⟩ := Prod.mk.inj (Option.some.inj (at_job.symm.trans same))
      obtain ⟨path, m'', run, unowned, mine⟩ := ih r sound owned standing awake at_job disciplined
      refine ⟨_, m'', (Run.single moved).trans run, unowned, ?_⟩
      intro p member
      rcases List.mem_cons.mp member with rfl | later
      · exact own
      · exact mine p later
    have last {m' : Machine ι β A B ε σ τ} {e : Label ι β B Op δ} (moved : Next w m e m')
        (own : e.thread? = some i) (unowned : m'.owner = none) :
        ∃ path m', Run (Next w) m path m' ∧ m'.owner = none ∧ ∀ p ∈ path, p.2.thread? = some i := by
      refine ⟨_, m', Run.single moved, unowned, ?_⟩
      intro p member
      rw [List.mem_singleton.mp member]
      exact own
    have goes (r : Call.Answer A B call) :
        Function.update m.thread i (some (b, next r)) i = some (b, next r) := Function.update_self ..
    cases call with
    | acquire => cases disciplined.1
    | free op => cases disciplined.1
    | release => exact last (.releases at_job owned) rfl rfl
    | wait => exact last (.parks at_job owned awake) rfl rfl
    | guarded op => exact within _ (.guards at_job) rfl owned (goes _)
    | notifyAll => exact within () (.notifiesAll at_job owned) rfl owned (goes _)
    | notify =>
      by_cases nobody : ∀ j, m.sleep j ≠ .parked
      · exact within () (.notifiesNobody at_job owned nobody) rfl owned (goes _)
      · simp only [not_forall, not_not] at nobody
        obtain ⟨j, parked⟩ := nobody
        exact within () (.notifies at_job owned parked) rfl owned (goes _)

/-! ## Wakeups -/

/-- What a section has to see to: a thread waits only while there is nothing to do, and
another that leaves something to do has notified. -/
structure Considerate (run : (op : Op) → σ → A op × σ) (quiet : σ → Prop) (waits : Bool)
    (p : Code A B ε) (s : σ) : Prop where
  waiting : ∀ next, (leave run p s).1 = .step .wait next → quiet (leave run p s).2
  telling : waits = false → rings run p s = true ∨ quiet (leave run p s).2

/-- Every section that a job may still come to is considerate, whatever it finds. -/
def Attentive (run : (op : Op) → σ → A op × σ) (quiet : σ → Prop) (waits : Bool) :
    Code A B ε → Prop
  | .done _ | .raise _ => True
  | .step call next => (waits = false → call ≠ .wait) ∧
      ∀ r, (call.enters = true → ∀ s, Considerate run quiet waits (next r) s) ∧
        Attentive run quiet waits (next r)

theorem attentive_under {α : Type} {run : (op : Op) → σ → A op × σ} {quiet : σ → Prop} {waits : Bool}
    {f : α → Code A B ε} {g : ε → Code A B ε} (p : Program Op A ε α)
    (returned : ∀ a, Attentive run quiet waits (f a)) (failed : ∀ e, Attentive run quiet waits (g e)) :
    Attentive run quiet waits (under p f g) := by
  induction p with
  | done a => exact returned a
  | raise e => exact failed e
  | step op next ih => exact ⟨fun _ => (by simp), fun r => ⟨fun enters => (by cases enters), ih r⟩⟩

/-- One thread waits. While it is parked with the lock free there is nothing to do, and who
holds the lock is going to see to that. -/
structure Told (w : Threads ι β A B ε σ τ δ) (quiet : σ → Prop) (waiter : ι)
    (m : Machine ι β A B ε σ τ) : Prop where
  sound : m.Sound
  jobs : ∀ i b p, m.thread i = some (b, p) → Attentive w.run quiet (decide (i = waiter)) p
  single : ∀ i, i ≠ waiter → m.sleep i = .awake
  free : m.owner = none → m.sleep waiter = .parked → quiet m.shared
  waiting : ∀ i b p, m.owner = some i → m.thread i = some (b, p) →
    ∀ next, (leave w.run p m.shared).1 = .step .wait next → quiet (leave w.run p m.shared).2
  telling : ∀ i b p, m.owner = some i → m.thread i = some (b, p) → m.sleep waiter = .parked →
    rings w.run p m.shared = true ∨ quiet (leave w.run p m.shared).2

namespace Told
variable {quiet : σ → Prop} {waiter : ι}

theorem initial {s : σ} (nothing : quiet s) (t : τ) :
    Told w quiet waiter ({ shared := s, outside := t } : Machine ι β A B ε σ τ) where
  sound := sound_initial s t
  jobs _ _ _ at_job := by cases at_job
  single _ _ := rfl
  free _ _ := nothing
  waiting _ _ _ owned := by cases owned
  telling _ _ _ owned := by cases owned

/-- The jobs after one thread has gone on. -/
theorem jobs_update (told : Told w quiet waiter m) {i : ι} {job : Option (β × Code A B ε)}
    (attentive : ∀ b p, job = some (b, p) → Attentive w.run quiet (decide (i = waiter)) p) :
    ∀ j b p, Function.update m.thread i job j = some (b, p) →
      Attentive w.run quiet (decide (j = waiter)) p := by
  intro j b p at_job
  by_cases same : j = i
  · subst same
    rw [Function.update_self] at at_job
    exact attentive b p at_job
  · rw [Function.update_of_ne same] at at_job
    exact told.jobs j b p at_job

theorem attentive (told : Told w quiet waiter m) {i : ι} {b : β} {call : Call Op Out}
    {next : Call.Answer A B call → Code A B ε} (at_call : m.thread i = some (b, .step call next)) :
    (i ≠ waiter → call ≠ .wait) ∧ ∀ r,
      (call.enters = true → ∀ s, Considerate w.run quiet (decide (i = waiter)) (next r) s) ∧
        Attentive w.run quiet (decide (i = waiter)) (next r) := by
  obtain ⟨only, rest⟩ := told.jobs i b _ at_call
  exact ⟨fun other => only (decide_eq_false other), rest⟩

/-- A step of a thread that does not own the lock. -/
theorem aside (told : Told w quiet waiter m) {i : ι} {job : Option (β × Code A B ε)} {outside : τ}
    (other : m.owner ≠ some i)
    (attentive : ∀ b p, job = some (b, p) → Attentive w.run quiet (decide (i = waiter)) p)
    (sound : Machine.Sound { m with thread := Function.update m.thread i job, outside }) :
    Told w quiet waiter { m with thread := Function.update m.thread i job, outside } where
  sound := sound
  jobs := told.jobs_update attentive
  single := told.single
  free := told.free
  waiting j b p owned at_job := by
    have apart : j ≠ i := by
      rintro rfl
      exact other owned
    have at_job : Function.update m.thread i job j = some (b, p) := at_job
    rw [Function.update_of_ne apart] at at_job
    exact told.waiting j b p owned at_job
  telling j b p owned at_job := by
    have apart : j ≠ i := by
      rintro rfl
      exact other owned
    have at_job : Function.update m.thread i job j = some (b, p) := at_job
    rw [Function.update_of_ne apart] at at_job
    exact told.telling j b p owned at_job

/-- The lock is taken; a parked thread is not the one that takes it. -/
theorem enter (told : Told w quiet waiter m) {i : ι} {b : β} {call : Call Op Out}
    {next : Call.Answer A B call → Code A B ε} {r : Call.Answer A B call} (sleep : ι → Sleep)
    (at_call : m.thread i = some (b, .step call next)) (enters : call.enters = true)
    (awake : ∀ j, j ≠ waiter → sleep j = .awake) (self : i = waiter → sleep waiter ≠ .parked)
    (sound : Machine.Sound { m.proceed i b (next r) with sleep, owner := some i }) :
    Told w quiet waiter { m.proceed i b (next r) with sleep, owner := some i } := by
  obtain ⟨-, rest⟩ := told.attentive at_call
  have considerate := (rest r).1 enters m.shared
  have mine {j : ι} {c : β} {p : Code A B ε} (owned : some i = some j)
      (at_job : Function.update m.thread i (some (b, next r)) j = some (c, p)) : i = j ∧ next r = p := by
    obtain rfl := Option.some.inj owned
    rw [Function.update_self] at at_job
    exact ⟨rfl, congrArg Prod.snd (Option.some.inj at_job)⟩
  refine ⟨sound, told.jobs_update ?_, awake, fun unowned => (by cases unowned), ?_, ?_⟩
  · rintro _ _ ⟨⟩
    exact (rest r).2
  · intro j c p owned at_job
    obtain ⟨rfl, rfl⟩ := mine owned at_job
    exact considerate.waiting
  · intro j c p owned at_job parked
    obtain ⟨rfl, rfl⟩ := mine owned at_job
    exact considerate.telling (decide_eq_false fun same => self same parked)

/-- A step of the owner within its section. -/
theorem within (told : Told w quiet waiter m) {i : ι} {b : β} {p : Code A B ε} {s : σ}
    (sleep : ι → Sleep) {call : Call Op Out} {next : Call.Answer A B call → Code A B ε}
    (owned : m.owner = some i) (at_call : m.thread i = some (b, .step call next))
    (awake : ∀ j, j ≠ waiter → sleep j = .awake) (went : ∃ r, next r = p)
    (same : leave w.run p s = leave w.run (.step call next) m.shared)
    (rang : sleep waiter = .parked →
      m.sleep waiter = .parked ∧ rings w.run (.step call next) m.shared = rings w.run p s)
    (sound : Machine.Sound { m.proceed i b p with sleep, shared := s }) :
    Told w quiet waiter { m.proceed i b p with sleep, shared := s } := by
  obtain ⟨r, rfl⟩ := went
  obtain ⟨-, rest⟩ := told.attentive at_call
  have mine {j : ι} {c : β} {p : Code A B ε} (owned' : m.owner = some j)
      (at_job : Function.update m.thread i (some (b, next r)) j = some (c, p)) : i = j ∧ next r = p := by
    obtain rfl : i = j := Option.some.inj (owned.symm.trans owned')
    rw [Function.update_self] at at_job
    exact ⟨rfl, congrArg Prod.snd (Option.some.inj at_job)⟩
  refine ⟨sound, told.jobs_update ?_, awake, ?_, ?_, ?_⟩
  · rintro _ _ ⟨⟩
    exact (rest r).2
  · intro unowned
    have unowned : m.owner = none := unowned
    rw [owned] at unowned
    cases unowned
  · intro j c p owned' at_job
    obtain ⟨rfl, rfl⟩ := mine owned' at_job
    rw [same]
    exact told.waiting i b _ owned at_call
  · intro j c p owned' at_job parked
    obtain ⟨rfl, rfl⟩ := mine owned' at_job
    obtain ⟨parked, rang⟩ := rang parked
    rw [same, ← rang]
    exact told.telling i b _ owned at_call parked

theorem step (codes : ∀ i b, w.begins i b → Disciplined false (w.code b) ∧
      Attentive w.run quiet (decide (i = waiter)) (w.code b))
    (told : Told w quiet waiter m) (moved : Next w m e m') : Told w quiet waiter m' := by
  have sound := sound_next (fun i b may => (codes i b may).1) told.sound moved
  have held {i : ι} {b : β} {call : Call Op Out} {next : Call.Answer A B call → Code A B ε}
      (at_call : m.thread i = some (b, .step call next)) (other : call ≠ .wait) :
      call.held = decide (m.owner = some i) := (told.sound.call at_call other).2.1
  cases moved with
  | @begins i b idle may =>
    have other := told.sound.not_owner_of_idle idle
    refine told.aside other ?_ sound
    rintro _ _ ⟨⟩
    exact (codes i b may).2
  | @finishes i b ended =>
    have other := told.sound.not_owner_of_ended ended
    refine told.aside other ?_ sound
    rintro _ _ ⟨⟩
  | @acquires i b next at_call unowned =>
    refine told.enter _ at_call rfl told.single ?_ sound
    rintro rfl
    have awake := (told.sound.call at_call (by simp)).1
    simp [Machine.proceed, awake]
  | @resumes i b next at_call roused unowned =>
    have waits : i = waiter := by
      by_contra other
      exact (told.attentive at_call).1 other rfl
    subst waits
    refine told.enter (Function.update m.sleep i .awake) at_call rfl ?_ ?_ sound
    · intro j other
      rw [Function.update_of_ne other]
      exact told.single j other
    · rw [Function.update_self]
      simp
  | @releases i b next at_call owned =>
    obtain ⟨-, rest⟩ := told.attentive at_call
    refine ⟨sound, told.jobs_update ?_, told.single, ?_, fun _ _ _ owned => (by cases owned),
      fun _ _ _ owned => (by cases owned)⟩
    · rintro _ _ ⟨⟩
      exact (rest ()).2
    · intro _ parked
      rcases told.telling i b _ owned at_call parked with rung | nothing
      · cases rung
      · exact nothing
  | @parks i b next at_call owned awake =>
    have waits : i = waiter := by
      by_contra other
      exact (told.attentive at_call).1 other rfl
    subst waits
    refine ⟨sound, told.jobs, ?_, ?_, fun _ _ _ owned => (by cases owned),
      fun _ _ _ owned => (by cases owned)⟩
    · intro j other
      exact (Function.update_of_ne other _ _).trans (told.single j other)
    · exact fun _ _ => told.waiting i b _ owned at_call next rfl
  | @timesOut i parked =>
    have waits : i = waiter := by
      by_contra other
      rw [told.single i other] at parked
      cases parked
    subst waits
    have roused : (m.slumber i .roused).sleep i ≠ .parked := by
      simp [Machine.slumber]
    refine ⟨sound, told.jobs, ?_, fun _ parked => absurd parked roused, told.waiting,
      fun _ _ _ _ _ parked => absurd parked roused⟩
    intro j other
    exact (Function.update_of_ne other _ _).trans (told.single j other)
  | @notifies i j b next at_call owned parked =>
    have waits : j = waiter := by
      by_contra other
      rw [told.single j other] at parked
      cases parked
    subst waits
    refine told.within (Function.update m.sleep j .roused) owned at_call ?_ ⟨(), rfl⟩ rfl
      ?_ sound
    · intro k other
      rw [Function.update_of_ne other]
      exact told.single k other
    · simp
  | @notifiesNobody i b next at_call owned nobody =>
    refine told.within m.sleep owned at_call told.single ⟨(), rfl⟩ rfl ?_ sound
    exact fun parked => absurd parked (nobody waiter)
  | @notifiesAll i b next at_call owned =>
    refine told.within m.rouse.sleep owned at_call ?_ ⟨(), rfl⟩ rfl ?_ sound
    · intro j other
      simp [Machine.rouse, told.single j other]
    · intro parked
      simp only [Machine.rouse] at parked
      split at parked
      · cases parked
      · next awake => exact absurd parked awake
  | @guards i b op next at_call =>
    have owned : m.owner = some i := of_decide_eq_true (held at_call (by simp)).symm
    exact told.within m.sleep owned at_call told.single ⟨_, rfl⟩ rfl
      (fun parked => ⟨parked, rfl⟩) sound
  | @frees i b op next r outside at_call effect =>
    have other : m.owner ≠ some i := of_decide_eq_false (held at_call (by simp)).symm
    refine told.aside other ?_ sound
    rintro _ _ ⟨⟩
    exact ((told.attentive at_call).2 r).2
  | drifts moved => exact ⟨sound, told.jobs, told.single, told.free, told.waiting, told.telling⟩

end Told

/-- No wakeup is lost: whenever the lock is free and the waiting thread is parked, there is
nothing for it to do. -/
theorem no_lost_wakeup {quiet : σ → Prop} {waiter : ι}
    (codes : ∀ i b, w.begins i b → Disciplined false (w.code b) ∧
      Attentive w.run quiet (decide (i = waiter)) (w.code b))
    {s : σ} {t : τ} {path : List (Machine ι β A B ε σ τ × Label ι β B Op δ)} (nothing : quiet s)
    (run : Run (Next w) { shared := s, outside := t } path m) (unowned : m.owner = none)
    (parked : m.sleep waiter = .parked) : quiet m.shared :=
  (run.invariant_always (I := Told w quiet waiter) (fun told moved => told.step codes moved)
    (.initial nothing t)).free unowned parked

end Monitor
