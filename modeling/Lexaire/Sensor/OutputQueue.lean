import Lexaire.Core.Program
import Lexaire.Core.Transition

/-! The output queue of the subscriber. For each frameset the matcher performs up to three
operations on it, and the consumer may run between any two of them. -/
namespace Lexaire.Sensor
open Atomic Transition

/-- `_out`'s `maxsize`. -/
def outputSize : Nat := 16

inductive QueueError where
  | full | empty

inductive QueueOp (φ : Type) where
  | put (fs : φ)
  | getNowait
  | putNowait (fs : φ)
deriving DecidableEq

section
variable {φ : Type}

@[reducible] def QueueOp.Answer : QueueOp φ → Type
  | .put _ | .putNowait _ => Except QueueError Unit
  | .getNowait => Except QueueError φ

/-- What an operation answers and leaves. A `put` waits while the queue is full, until it
times out. -/
def QueueOp.run : (op : QueueOp φ) → List φ → op.Answer × List φ
  | .put fs, queue | .putNowait fs, queue =>
    if queue.length < outputSize then (.ok (), queue ++ [fs]) else (.error .full, queue)
  | .getNowait, [] => (.error .empty, [])
  | .getNowait, oldest :: rest => (.ok oldest, rest)

abbrev QueueCode (φ α : Type) := Program (QueueOp φ) QueueOp.Answer QueueError α

def put (fs : φ) : QueueCode φ Unit :=
  Program.perform (QueueOp.put fs) >>= fun r => Program.ofExcept r

def getNowait : QueueCode φ φ := Program.perform QueueOp.getNowait >>= fun r => Program.ofExcept r

def putNowait (fs : φ) : QueueCode φ Unit :=
  Program.perform (QueueOp.putNowait fs) >>= fun r => Program.ofExcept r

/-- The handler of `queue.Full`; in its own handler the frameset is logged and dropped. -/
def replaceOldest (fs : φ) : QueueCode φ Unit :=
  (getNowait >>= fun _ => putNowait fs).catching fun _ => pure ()

/-- The body of `for fs in matched`. -/
def enqueue (fs : φ) : QueueCode φ Unit :=
  (put fs).catching fun
    | .full => replaceOldest fs
    | .empty => .raise .empty

/-- The queue, and the matcher with the frameset that it enqueues. -/
structure Output (φ : Type) where
  queue : List φ := []
  matcher : Option (φ × QueueCode φ Unit) := none

inductive OutputLabel (φ : Type) where
  | begins (fs : φ)
  | performs (op : QueueOp φ)
  | finishes
  | gets (fs : φ)
  | misses

inductive Output.Next : Output φ → OutputLabel φ → Output φ → Prop where
  | begins {s : Output φ} {fs : φ} (idle : s.matcher = none) :
      Next s (.begins fs) { s with matcher := some (fs, enqueue fs) }
  | performs {s : Output φ} {fs : φ} {op : QueueOp φ} {next : op.Answer → QueueCode φ Unit}
      (at_op : s.matcher = some (fs, .step op next)) :
      Next s (.performs op)
        { queue := (op.run s.queue).2, matcher := some (fs, next (op.run s.queue).1) }
  | finishes {s : Output φ} {fs : φ} (ended : s.matcher = some (fs, .done ())) :
      Next s .finishes { s with matcher := none }
  | gets {s : Output φ} {fs : φ} {rest : List φ} (head : s.queue = fs :: rest) :
      Next s (.gets fs) { s with queue := rest }
  | misses {s : Output φ} (empty : s.queue = []) : Next s .misses s

/-! ## What became of the framesets -/

abbrev OutputHistory (φ : Type) := List (Output φ × OutputLabel φ)

def matched? : Output φ × OutputLabel φ → Option φ
  | (_, .begins fs) => some fs
  | _ => none

def received? : Output φ × OutputLabel φ → Option φ
  | (_, .gets fs) => some fs
  | _ => none

/-- The oldest in the queue, which the matcher takes out of it. -/
def displaced? : Output φ × OutputLabel φ → Option φ
  | (s, .performs .getNowait) => s.queue.head?
  | _ => none

/-- The frameset in the matcher's hands, when it finds nothing to take out. -/
def discarded? : Output φ × OutputLabel φ → Option φ
  | (s, .performs .getNowait) => if s.queue.isEmpty then s.matcher.map (·.1) else none
  | _ => none

/-- The frameset that the matcher has still to put. -/
def Output.hand (s : Output φ) : List φ :=
  match s.matcher with
  | some (fs, .step _ _) => [fs]
  | _ => []

/-- The matcher's `get_nowait`, after its `put` timed out, finds what the consumer has left;
it has left something. -/
def Stocked (p : Output φ × OutputLabel φ) : Prop := p.2 = .performs .getNowait → p.1.queue ≠ []

/-! ## The matcher's steps -/

/-- The second half of `replaceOldest`. -/
def putLast (fs : φ) : QueueCode φ Unit := (putNowait fs).catching fun _ => pure ()

/-- What is left of `enqueue fs`; before the last operation there is room. -/
inductive Stage (fs : φ) (queue : List φ) : QueueCode φ Unit → Prop where
  | putting : Stage fs queue (enqueue fs)
  | replacing : Stage fs queue (replaceOldest fs)
  | last (room : queue.length < outputSize) : Stage fs queue (putLast fs)
  | finished : Stage fs queue (.done ())

/-- An operation of the matcher, the queue after it and what is then left. -/
inductive Effect (fs : φ) : QueueOp φ → List φ → List φ → QueueCode φ Unit → Prop where
  | puts {op : QueueOp φ} {queue : List φ} (other : op ≠ .getNowait)
      (room : queue.length < outputSize) : Effect fs op queue (queue ++ [fs]) (.done ())
  | timesOut {op : QueueOp φ} {queue : List φ} (other : op ≠ .getNowait) :
      Effect fs op queue queue (replaceOldest fs)
  | displaces {oldest : φ} {rest : List φ} (room : rest.length < outputSize) :
      Effect fs .getNowait (oldest :: rest) rest (putLast fs)
  | discards : Effect fs .getNowait [] [] (.done ())

theorem enqueue_eq (fs : φ) : enqueue fs = .step (.put fs) fun r =>
    match r with
    | .ok () => .done ()
    | .error .full => replaceOldest fs
    | .error .empty => .raise .empty := by
  refine congrArg (Program.step (QueueOp.put fs)) (funext fun r => ?_)
  rcases r with (_ | _) | _ <;> rfl

theorem replaceOldest_eq (fs : φ) : replaceOldest fs = .step .getNowait fun r =>
    match r with
    | .ok _ => putLast fs
    | .error _ => .done () := by
  refine congrArg (Program.step QueueOp.getNowait) (funext fun r => ?_)
  rcases r with _ | _ <;> rfl

theorem putLast_eq (fs : φ) : putLast fs = .step (.putNowait fs) fun _ => .done () := by
  refine congrArg (Program.step (QueueOp.putNowait fs)) (funext fun r => ?_)
  rcases r with _ | _ <;> rfl

theorem stage_performs {fs : φ} {queue : List φ} {op : QueueOp φ}
    {next : op.Answer → QueueCode φ Unit} (bounded : queue.length ≤ outputSize)
    (stage : Stage fs queue (.step op next)) :
    Effect fs op queue (op.run queue).2 (next (op.run queue).1) := by
  generalize same : Program.step op next = rest at stage
  cases stage with
  | putting =>
    rw [enqueue_eq] at same
    cases same
    by_cases room : queue.length < outputSize
    · simp only [QueueOp.run, if_pos room]
      exact .puts nofun room
    · simp only [QueueOp.run, if_neg room]
      exact .timesOut nofun
  | replacing =>
    rw [replaceOldest_eq] at same
    cases same
    cases queue with
    | nil => exact .discards
    | cons oldest rest => exact .displaces (Nat.lt_of_succ_le bounded)
  | last room =>
    rw [putLast_eq] at same
    cases same
    simp only [QueueOp.run, if_pos room]
    exact .puts nofun room
  | finished => cases same

/-! ## Runs -/

variable {s s' : Output φ} {path : OutputHistory φ}

structure Bounded (s : Output φ) : Prop where
  bounded : s.queue.length ≤ outputSize
  stage : ∀ fs rest, s.matcher = some (fs, rest) → Stage fs s.queue rest

theorem Stage.shrink {fs : φ} {queue shorter : List φ} {rest : QueueCode φ Unit}
    (stage : Stage fs queue rest) (less : shorter.length ≤ queue.length) : Stage fs shorter rest := by
  cases stage with
  | putting => exact .putting
  | replacing => exact .replacing
  | last room => exact .last (by omega)
  | finished => exact .finished

theorem Effect.bounded {fs : φ} {op : QueueOp φ} {queue queue' : List φ}
    {rest : QueueCode φ Unit} (effect : Effect fs op queue queue' rest)
    (bounded : queue.length ≤ outputSize) : queue'.length ≤ outputSize ∧ Stage fs queue' rest := by
  cases effect with
  | puts other room => exact ⟨by simpa using Nat.succ_le_of_lt room, .finished⟩
  | timesOut => exact ⟨bounded, .replacing⟩
  | displaces room => exact ⟨Nat.le_of_lt room, .last room⟩
  | discards => exact ⟨bounded, .finished⟩

theorem bounded_next {e : OutputLabel φ} (kept : Bounded s) (moved : Output.Next s e s') :
    Bounded s' := by
  obtain ⟨bounded, stage⟩ := kept
  cases moved with
  | begins idle =>
    refine ⟨bounded, ?_⟩
    rintro fs rest ⟨⟩
    exact .putting
  | performs at_op =>
    obtain ⟨bounded', stage'⟩ := (stage_performs bounded (stage _ _ at_op)).bounded bounded
    refine ⟨bounded', ?_⟩
    rintro fs rest ⟨⟩
    exact stage'
  | finishes ended =>
    refine ⟨bounded, ?_⟩
    rintro fs rest ⟨⟩
  | gets head =>
    rw [head] at bounded stage
    refine ⟨Nat.le_of_succ_le bounded, fun fs rest held => ?_⟩
    exact (stage fs rest held).shrink (Nat.le_succ _)
  | misses empty => exact ⟨bounded, stage⟩

/-- Every frameset is accounted for; those received, queued and in hand come in the order in
which they were matched. -/
structure Accounted (path : OutputHistory φ) (s : Output φ) : Prop where
  bounded : Bounded s
  ordered : (path.filterMap received? ++ s.queue ++ s.hand).Sublist (path.filterMap matched?)
  whole : (path.filterMap matched?).Perm (path.filterMap received? ++ path.filterMap displaced? ++
    path.filterMap discarded? ++ s.queue ++ s.hand)

theorem hand_of_step {fs : φ} {op : QueueOp φ} {next : op.Answer → QueueCode φ Unit}
    (at_op : s.matcher = some (fs, .step op next)) : s.hand = [fs] := by
  rw [Output.hand, at_op]

theorem filterMap_snoc {α β : Type} (f : α → Option β) (path : List α) (p : α) :
    (path ++ [p]).filterMap f = path.filterMap f ++ (f p).toList := by
  cases same : f p <;> simp [same]

/-- What an operation does with the queue and the frameset in hand. -/
theorem performs_fates {fs : φ} {op : QueueOp φ} {next : op.Answer → QueueCode φ Unit}
    {queue' : List φ} {rest : QueueCode φ Unit} (at_op : s.matcher = some (fs, .step op next))
    (effect : Effect fs op s.queue queue' rest) :
    (queue' ++ Output.hand ⟨queue', some (fs, rest)⟩).Sublist (s.queue ++ [fs]) ∧
      (s.queue ++ [fs]).Perm ((displaced? (s, .performs op)).toList ++
        (discarded? (s, .performs op)).toList ++ queue' ++ Output.hand ⟨queue', some (fs, rest)⟩) := by
  have puts (other : op ≠ .getNowait) :
      displaced? (s, .performs op) = none ∧ discarded? (s, .performs op) = none := by
    cases op with
    | getNowait => exact absurd rfl other
    | put | putNowait => exact ⟨rfl, rfl⟩
  generalize at_queue : s.queue = queue at effect
  cases effect with
  | puts other room =>
    obtain ⟨displaced, discarded⟩ := puts other
    simp [Output.hand, displaced, discarded]
  | timesOut other =>
    obtain ⟨displaced, discarded⟩ := puts other
    simp [Output.hand, displaced, discarded, replaceOldest_eq]
  | displaces room => simp [Output.hand, displaced?, discarded?, at_queue, putLast_eq]
  | discards => simp [Output.hand, displaced?, discarded?, at_queue, at_op]

theorem accounted_performs {fs : φ} {op : QueueOp φ} {next : op.Answer → QueueCode φ Unit}
    (accounted : Accounted path s) (at_op : s.matcher = some (fs, .step op next)) :
    Accounted (path ++ [(s, .performs op)])
      { queue := (op.run s.queue).2, matcher := some (fs, next (op.run s.queue).1) } := by
  obtain ⟨kept, ordered, whole⟩ := accounted
  have effect := stage_performs kept.bounded (kept.stage _ _ at_op)
  obtain ⟨later, fates⟩ := performs_fates at_op effect
  rw [hand_of_step at_op] at ordered whole
  refine ⟨bounded_next kept (.performs at_op), ?_, ?_⟩
  · simp only [filterMap_snoc, matched?, received?, Option.toList_none, List.append_nil,
      List.append_assoc] at ordered ⊢
    exact ((List.Sublist.refl _).append later).trans ordered
  · simp only [filterMap_snoc, matched?, received?, Option.toList_none, List.append_nil] at whole ⊢
    apply whole.trans
    classical
    apply List.perm_iff_count.mpr
    intro a
    have count := fates.count_eq a
    simp only [List.count_append] at count ⊢
    omega

/-- A step of which no frameset sees anything. -/
theorem Accounted.idle {e : OutputLabel φ} (accounted : Accounted path s) (kept : Bounded s')
    (queue : s'.queue = s.queue) (hand : s'.hand = s.hand) (unmatched : matched? (s, e) = none)
    (unreceived : received? (s, e) = none) (undisplaced : displaced? (s, e) = none)
    (undiscarded : discarded? (s, e) = none) : Accounted (path ++ [(s, e)]) s' := by
  obtain ⟨-, ordered, whole⟩ := accounted
  refine ⟨kept, ?_, ?_⟩
  · simpa only [filterMap_snoc, unmatched, unreceived, queue, hand, Option.toList_none,
      List.append_nil] using ordered
  · simpa only [filterMap_snoc, unmatched, unreceived, undisplaced, undiscarded, queue, hand,
      Option.toList_none, List.append_nil] using whole

theorem accounted_next {e : OutputLabel φ} (accounted : Accounted path s)
    (moved : Output.Next s e s') : Accounted (path ++ [(s, e)]) s' := by
  have kept := bounded_next accounted.bounded moved
  cases moved with
  | performs at_op => exact accounted_performs accounted at_op
  | @begins fs idle =>
    obtain ⟨-, ordered, whole⟩ := accounted
    have hand : s.hand = [] := by rw [Output.hand, idle]
    have held : Output.hand { s with matcher := some (fs, enqueue fs) } = [fs] := by
      simp [Output.hand, enqueue_eq]
    rw [hand, List.append_nil] at ordered whole
    refine ⟨kept, ?_, ?_⟩
    · simp only [filterMap_snoc, matched?, received?, held, Option.toList_none, Option.toList_some,
        List.append_nil]
      exact ordered.append (List.Sublist.refl [fs])
    · simp only [filterMap_snoc, matched?, received?, displaced?, discarded?, held,
        Option.toList_none, Option.toList_some, List.append_nil]
      exact whole.append_right [fs]
  | finishes ended =>
    have hand : s.hand = [] := by rw [Output.hand, ended]
    exact accounted.idle kept rfl hand.symm rfl rfl rfl rfl
  | @gets fs rest head =>
    obtain ⟨-, ordered, whole⟩ := accounted
    have hand : Output.hand { s with queue := rest } = s.hand := rfl
    rw [head] at ordered whole
    refine ⟨kept, ?_, ?_⟩
    · simp only [filterMap_snoc, matched?, received?, hand, Option.toList_none, Option.toList_some,
        List.append_nil, List.append_assoc, List.cons_append, List.nil_append] at ordered ⊢
      exact ordered
    · simp only [filterMap_snoc, matched?, received?, displaced?, discarded?, hand,
        Option.toList_none, Option.toList_some, List.append_nil]
      apply whole.trans
      classical
      apply List.perm_iff_count.mpr
      intro a
      simp only [List.count_append, List.count_cons, List.count_nil]
      omega
  | misses empty => exact accounted.idle kept rfl rfl rfl rfl rfl rfl

theorem accounted_run (run : Run Output.Next {} path s) : Accounted path s := by
  refine Run.invariant_history (fun _ _ => True) (fun accounted _ moved => accounted_next accounted moved)
    run ?_ fun _ _ _ _ => trivial
  refine ⟨⟨Nat.zero_le _, fun fs rest held => nomatch held⟩, ?_, ?_⟩
  · exact List.Sublist.refl []
  · exact List.Perm.refl []

theorem stocked_iff {e : OutputLabel φ} (moved : Output.Next s e s') :
    Stocked (s, e) ↔ discarded? (s, e) = none := by
  cases moved with
  | @performs fs op next at_op =>
    cases op with
    | getNowait =>
      cases queue : s.queue with
      | nil => simp [Stocked, discarded?, queue, at_op]
      | cons oldest rest => simp [Stocked, discarded?, queue]
    | put | putNowait => simp [Stocked, discarded?]
  | _ => simp [Stocked, discarded?]

/-- What the consumer receives comes in the order of the matching, each frameset once. A
frameset that it does not receive is queued, in hand or displaced as the oldest, or it was
discarded in the matcher's hands; that happens exactly where the matcher, having found the
queue full, finds it emptied. -/
theorem output_queue_accounted (run : Run Output.Next {} path s) :
    (path.filterMap received?).Sublist (path.filterMap matched?) ∧
      (path.filterMap matched?).Perm (path.filterMap received? ++ path.filterMap displaced? ++
        path.filterMap discarded? ++ s.queue ++ s.hand) ∧
      ∀ p ∈ path, discarded? p = none ↔ Stocked p := by
  obtain ⟨-, ordered, whole⟩ := accounted_run run
  refine ⟨List.Sublist.trans ?_ ordered, whole, ?_⟩
  · rw [List.append_assoc]
    exact List.sublist_append_left _ _
  · exact (Run.invariant (I := fun _ => True) (fun _ _ => True)
      (fun s e => discarded? (s, e) = none ↔ Stocked (s, e)) (fun _ _ _ => trivial)
      (fun _ _ moved => (stocked_iff moved).symm) run trivial fun _ _ => trivial).2

end

/-! ## Seventeen framesets -/

def Output.step? (s : Output Nat) : OutputLabel Nat → Option (Output Nat)
  | .begins fs =>
    match s.matcher with
    | none => some { s with matcher := some (fs, enqueue fs) }
    | some _ => none
  | .performs op =>
    match s.matcher with
    | some (fs, .step op' next) =>
      if op = op' then
        some { queue := (op'.run s.queue).2, matcher := some (fs, next (op'.run s.queue).1) }
      else none
    | _ => none
  | .finishes =>
    match s.matcher with
    | some (_, .done ()) => some { s with matcher := none }
    | _ => none
  | .gets fs =>
    match s.queue with
    | oldest :: rest => if oldest = fs then some { s with queue := rest } else none
    | [] => none
  | .misses => if s.queue.isEmpty then some s else none

theorem Output.step?_sound {s s' : Output Nat} {e : OutputLabel Nat}
    (moved : s.step? e = some s') : Output.Next s e s' := by
  cases e with
  | begins fs =>
    simp only [step?] at moved
    split at moved
    · next idle =>
      obtain rfl := Option.some.inj moved
      exact .begins idle
    · cases moved
  | performs op =>
    simp only [step?] at moved
    split at moved
    · next at_op =>
      simp only [Option.ite_none_right_eq_some, Option.some.injEq] at moved
      obtain ⟨rfl, rfl⟩ := moved
      exact .performs at_op
    · cases moved
  | finishes =>
    simp only [step?] at moved
    split at moved
    · next ended =>
      obtain rfl := Option.some.inj moved
      exact .finishes ended
    · cases moved
  | gets fs =>
    simp only [step?] at moved
    split at moved
    · next head =>
      simp only [Option.ite_none_right_eq_some, Option.some.injEq] at moved
      obtain ⟨rfl, rfl⟩ := moved
      exact .gets head
    · cases moved
  | misses =>
    simp only [step?, Option.ite_none_right_eq_some, Option.some.injEq] at moved
    obtain ⟨empty, rfl⟩ := moved
    exact .misses (List.isEmpty_iff.mp empty)

/-- Sixteen framesets fill the queue, and the `put` of the next one times out. -/
def fullLabels : List (OutputLabel Nat) :=
  (List.range 16).flatMap (fun fs => [.begins fs, .performs (.put fs), .finishes]) ++
    [.begins 16, .performs (.put 16)]

/-- The oldest makes room. -/
theorem output_queue_accounted_full : ∃ path, ∃ s : Output Nat, Run Output.Next {} path s ∧
    path.filterMap displaced? = [0] ∧ (path.filterMap received?).Sublist (path.filterMap matched?) ∧
    (path.filterMap matched?).Perm (path.filterMap received? ++ path.filterMap displaced? ++
      path.filterMap discarded? ++ s.queue ++ s.hand) ∧
    ∀ p ∈ path, discarded? p = none ↔ Stocked p := by
  have checked : (replay Output.step? {} (fullLabels ++ [.performs .getNowait,
      .performs (.putNowait 16), .finishes, .gets 1])).any
      (fun ran => ran.1.filterMap displaced? = [0]) = true := by
    decide +kernel
  obtain ⟨⟨path, s⟩, ran, displaced⟩ := (Option.any_eq_true _ _).mp checked
  have run := Run.of_replay Output.step?_sound ran
  exact ⟨path, s, run, of_decide_eq_true displaced, output_queue_accounted run⟩

/-- The consumer empties the queue in between: the newest frameset is dropped. -/
theorem newest_frameset_dropped : ¬ ∀ (φ : Type) path, ∀ s : Output φ, Run Output.Next {} path s →
    (path.filterMap received?).Sublist (path.filterMap matched?) ∧
    (path.filterMap matched?).Perm (path.filterMap received? ++ path.filterMap displaced? ++
      s.queue ++ s.hand) := by
  intro claimed
  have checked : (replay Output.step? {} (fullLabels ++ (List.range 16).map .gets ++
      [.performs .getNowait, .finishes])).any (fun ran =>
        (ran.1.filterMap received? ++ ran.1.filterMap displaced? ++ ran.2.queue ++ ran.2.hand).length <
          (ran.1.filterMap matched?).length) = true := by
    decide +kernel
  obtain ⟨⟨path, s⟩, ran, shorter⟩ := (Option.any_eq_true _ _).mp checked
  have kept := (claimed Nat path s (Run.of_replay Output.step?_sound ran)).2
  exact absurd (of_decide_eq_true shorter) (Nat.not_lt_of_le (Nat.le_of_eq kept.length_eq))

end Lexaire.Sensor
