import Mathlib.Data.Finset.Sort
import Mathlib.Data.List.DropRight

/-! Pairing the keys of two increasing streams. Each stream goes through a buffer that
drops its oldest entries; a pass takes out, in order, the keys that both buffers hold. -/
namespace Pairing
variable {K : Type}

theorem rtake_append {α : Type} (a b : List α) (n : Nat) :
    (a ++ b).rtake n = a.rtake (n - b.length) ++ b.rtake n := by
  simp only [List.rtake, List.drop_append, List.length_append]
  congr 1
  · by_cases short : b.length ≤ n
    · congr 1
      omega
    · rw [List.drop_eq_nil_of_le (by omega), List.drop_eq_nil_of_le (by omega)]
  · congr 1
    omega

theorem rtake_rtake {α : Type} (l : List α) {m n : Nat} (fewer : m ≤ n) :
    (l.rtake n).rtake m = l.rtake m := by
  simp only [List.rtake, List.drop_drop, List.length_drop]
  congr 1
  omega

/-- What an entry pushes out is at the front. -/
theorem rtake_concat {α : Type} (l : List α) (x : α) (n : Nat) :
    (l.rtake n ++ [x]).rtake n = (l ++ [x]).rtake n := by
  cases n with
  | zero => simp
  | succ n => rw [List.rtake_concat_succ, List.rtake_concat_succ, rtake_rtake l (Nat.le_succ n)]

theorem length_rtake_le {α : Type} (l : List α) (n : Nat) : (l.rtake n).length ≤ n := by
  simp only [List.rtake, List.length_drop]
  omega

theorem rtake_sublist {α : Type} (l : List α) (n : Nat) : (l.rtake n).Sublist l :=
  List.drop_sublist _ l

/-- The last entries hold the first one exactly if they are all. -/
theorem mem_rtake_cons {k : K} {later : List K} {n : Nat} (fresh : k ∉ later) :
    k ∈ (k :: later).rtake n ↔ later.length < n := by
  constructor
  · intro member
    by_contra short
    have passed : (k :: later).length - n = (later.length - n) + 1 := by
      simp only [List.length_cons]
      omega
    rw [List.rtake, passed, List.drop_succ_cons] at member
    exact fresh (List.mem_of_mem_drop member)
  · intro short
    have all : (k :: later).length - n = 0 := by
      simp only [List.length_cons]
      omega
    rw [List.rtake, all]
    exact List.mem_cons_self

/-! ## Events -/

inductive Event (K : Type) where
  | left (k : K)
  | right (k : K)
  | pass

namespace Event

def left? : Event K → Option K
  | .left k => some k
  | _ => none

def right? : Event K → Option K
  | .right k => some k
  | _ => none

def swap : Event K → Event K
  | .left k => .right k
  | .right k => .left k
  | .pass => .pass

theorem swap_swap (e : Event K) : e.swap.swap = e := by
  cases e <;> rfl

theorem map_swap_swap (events : List (Event K)) : (events.map swap).map swap = events := by
  rw [List.map_map]
  exact (List.map_congr_left fun e _ => swap_swap e).trans (List.map_id' events)

end Event

def lefts (events : List (Event K)) : List K := events.filterMap Event.left?

def rights (events : List (Event K)) : List K := events.filterMap Event.right?

@[simp] theorem lefts_left (k : K) : lefts [Event.left k] = [k] := rfl
@[simp] theorem lefts_right (k : K) : lefts [Event.right k] = [] := rfl
@[simp] theorem lefts_pass : lefts [(.pass : Event K)] = [] := rfl

@[simp] theorem lefts_append (events events' : List (Event K)) :
    lefts (events ++ events') = lefts events ++ lefts events' := List.filterMap_append

@[simp] theorem rights_append (events events' : List (Event K)) :
    rights (events ++ events') = rights events ++ rights events' := List.filterMap_append

theorem lefts_swap (events : List (Event K)) : lefts (events.map Event.swap) = rights events := by
  simp only [lefts, rights, List.filterMap_map]
  congr
  funext e
  cases e <;> rfl

theorem rights_swap (events : List (Event K)) : rights (events.map Event.swap) = lefts events := by
  simp only [lefts, rights, List.filterMap_map]
  congr
  funext e
  cases e <;> rfl

variable [LinearOrder K]

/-- Both streams are increasing. -/
structure Ordered (events : List (Event K)) : Prop where
  lefts : (lefts events).Pairwise (· < ·)
  rights : (rights events).Pairwise (· < ·)

theorem Ordered.of_append {events events' : List (Event K)} (ordered : Ordered (events ++ events')) :
    Ordered events := by
  have ⟨left, right⟩ := ordered
  rw [lefts_append] at left
  rw [rights_append] at right
  exact ⟨(List.pairwise_append.mp left).1, (List.pairwise_append.mp right).1⟩

theorem Ordered.swap {events : List (Event K)} (ordered : Ordered events) :
    Ordered (events.map Event.swap) := by
  constructor
  · rw [lefts_swap]
    exact ordered.rights
  · rw [rights_swap]
    exact ordered.lefts

/-- What comes on a stream is above what came before. -/
theorem Ordered.above_left {events : List (Event K)} {k : K}
    (ordered : Ordered (events ++ [.left k])) : ∀ j ∈ Pairing.lefts events, j < k := by
  intro j earlier
  have increasing := ordered.lefts
  rw [lefts_append] at increasing
  exact (List.pairwise_append.mp increasing).2.2 j earlier k List.mem_cons_self

theorem Ordered.above_right {events : List (Event K)} {k : K}
    (ordered : Ordered (events ++ [.right k])) : ∀ j ∈ Pairing.rights events, j < k := by
  intro j earlier
  have increasing := ordered.rights
  rw [rights_append] at increasing
  exact (List.pairwise_append.mp increasing).2.2 j earlier k List.mem_cons_self

/-! ## Buffers and passes -/

structure State (K : Type) where
  left : List K := []
  right : List K := []
  out : List K := []

namespace State

/-- Keys that both buffers hold, in order. -/
def common (s : State K) : List K := (s.left.toFinset ∩ s.right.toFinset).sort

def swap (s : State K) : State K := { left := s.right, right := s.left, out := s.out }

@[simp] theorem mem_common {s : State K} {k : K} : k ∈ s.common ↔ k ∈ s.left ∧ k ∈ s.right := by
  simp [common]

theorem common_increasing (s : State K) : s.common.Pairwise (· < ·) :=
  (Finset.sortedLT_sort _).pairwise

theorem common_swap (s : State K) : s.swap.common = s.common := by
  simp only [common, swap, Finset.inter_comm]

end State

/-- A key that the buffer holds keeps its place. -/
def buffer (size : Nat) (keys : List K) (k : K) : List K :=
  (if k ∈ keys then keys else keys ++ [k]).rtake size

def step (size : Nat) (s : State K) : Event K → State K
  | .left k => { s with left := buffer size s.left k }
  | .right k => { s with right := buffer size s.right k }
  | .pass => {
      left := s.left.filter (· ∉ s.right)
      right := s.right.filter (· ∉ s.left)
      out := s.out ++ s.common }

def run (size : Nat) (events : List (Event K)) : State K := events.foldl (step size) {}

@[simp] theorem run_append_singleton (size : Nat) (events : List (Event K)) (e : Event K) :
    run size (events ++ [e]) = step size (run size events) e := by
  simp [run]

theorem step_swap (size : Nat) (s : State K) (e : Event K) :
    step size s.swap e.swap = (step size s e).swap := by
  cases e with
  | left k => rfl
  | right k => rfl
  | pass =>
    simp only [step, Event.swap, State.common_swap]
    rfl

theorem run_swap (size : Nat) (events : List (Event K)) :
    run size (events.map Event.swap) = (run size events).swap := by
  induction events using List.reverseRecOn with
  | nil => rfl
  | append_singleton events e ih =>
    rw [List.map_append, List.map_singleton, run_append_singleton, ih, step_swap,
      run_append_singleton]

theorem length_buffer_le (size : Nat) (keys : List K) (k : K) : (buffer size keys k).length ≤ size :=
  length_rtake_le _ size

theorem buffer_fresh {size : Nat} {keys : List K} {k : K} (fresh : ∀ j ∈ keys, j < k) :
    buffer size keys k = (keys ++ [k]).rtake size := by
  have absent : k ∉ keys := fun held => lt_irrefl k (fresh k held)
  rw [buffer, if_neg absent]

theorem mem_buffer {size : Nat} {keys : List K} {k j : K} (held : j ∈ buffer size keys k) :
    j ∈ keys ∨ j = k := by
  have member := (rtake_sublist _ size).subset held
  split at member
  · exact .inl member
  · simpa using member

/-! ## What a run has given out -/

/-- What the buffers hold was received, what was given out is held no longer, and
nothing below it can still be given out. -/
structure Invariant (size : Nat) (events : List (Event K)) (s : State K) : Prop where
  left_received : ∀ k ∈ s.left, k ∈ lefts events
  right_received : ∀ k ∈ s.right, k ∈ rights events
  left_bounded : s.left.length ≤ size
  right_bounded : s.right.length ≤ size
  out_received : ∀ k ∈ s.out, k ∈ lefts events ∧ k ∈ rights events
  increasing : s.out.Pairwise (· < ·)
  above : ∀ o ∈ s.out, ∀ k ∈ s.left, k ∈ s.right → o < k

namespace Invariant
variable {size : Nat} {events : List (Event K)} {s : State K}

theorem swap (inv : Invariant size events s) : Invariant size (events.map Event.swap) s.swap := by
  constructor
  case left_received => rw [lefts_swap]; exact inv.right_received
  case right_received => rw [rights_swap]; exact inv.left_received
  case left_bounded => exact inv.right_bounded
  case right_bounded => exact inv.left_bounded
  case out_received =>
    rw [lefts_swap, rights_swap]
    exact fun k given => (inv.out_received k given).symm
  case increasing => exact inv.increasing
  case above => exact fun o given k held there => inv.above o given k there held

theorem received (inv : Invariant size events s) (e : Event K) :
    (∀ k ∈ s.left, k ∈ lefts (events ++ [e])) ∧ (∀ k ∈ s.right, k ∈ rights (events ++ [e])) ∧
      ∀ k ∈ s.out, k ∈ lefts (events ++ [e]) ∧ k ∈ rights (events ++ [e]) := by
  rw [lefts_append, rights_append]
  refine ⟨?_, ?_, ?_⟩
  · intro k held
    exact List.mem_append_left _ (inv.left_received k held)
  · intro k held
    exact List.mem_append_left _ (inv.right_received k held)
  · intro k given
    have ⟨left, right⟩ := inv.out_received k given
    exact ⟨List.mem_append_left _ left, List.mem_append_left _ right⟩

theorem left (inv : Invariant size events s) {j : K} (above : ∀ k ∈ lefts events, k < j) :
    Invariant size (events ++ [.left j]) (step size s (.left j)) := by
  have ⟨left_received, right_received, out_received⟩ := inv.received (.left j)
  constructor
  case left_received =>
    intro k held
    rcases mem_buffer held with before | rfl
    · exact left_received k before
    · simp [lefts, Event.left?]
  case right_received => exact right_received
  case left_bounded => exact length_buffer_le size s.left j
  case right_bounded => exact inv.right_bounded
  case out_received => exact out_received
  case increasing => exact inv.increasing
  case above =>
    intro o given k held there
    rcases mem_buffer held with before | rfl
    · exact inv.above o given k before there
    · exact above o (inv.out_received o given).1

theorem right (inv : Invariant size events s) {j : K} (above : ∀ k ∈ rights events, k < j) :
    Invariant size (events ++ [.right j]) (step size s (.right j)) := by
  have swapped : Invariant size (events.map Event.swap ++ [.left j]) (step size s.swap (.left j)) := by
    apply inv.swap.left
    rw [lefts_swap]
    exact above
  have kept := swapped.swap
  rw [List.map_append, Event.map_swap_swap] at kept
  exact kept

theorem pass (inv : Invariant size events s) :
    Invariant size (events ++ [.pass]) (step size s .pass) := by
  have ⟨left_received, right_received, out_received⟩ := inv.received .pass
  constructor
  case left_received => exact fun k held => left_received k (List.mem_of_mem_filter held)
  case right_received => exact fun k held => right_received k (List.mem_of_mem_filter held)
  case left_bounded => exact (List.length_filter_le _ _).trans inv.left_bounded
  case right_bounded => exact (List.length_filter_le _ _).trans inv.right_bounded
  case out_received =>
    intro k given
    rcases List.mem_append.mp given with before | now
    · exact out_received k before
    · have ⟨left, right⟩ := State.mem_common.mp now
      exact ⟨left_received k left, right_received k right⟩
  case increasing =>
    apply List.pairwise_append.mpr
    refine ⟨inv.increasing, s.common_increasing, ?_⟩
    intro o given k now
    have ⟨left, right⟩ := State.mem_common.mp now
    exact inv.above o given k left right
  case above =>
    intro o given k held there
    have ⟨_, parted⟩ := List.mem_filter.mp held
    have paired : k ∈ s.right := List.mem_of_mem_filter there
    simp [paired] at parted

end Invariant

theorem invariant_run (size : Nat) {events : List (Event K)} (ordered : Ordered events) :
    Invariant size events (run size events) := by
  induction events using List.reverseRecOn with
  | nil => constructor <;> simp [run]
  | append_singleton events e ih =>
    have inv := ih ordered.of_append
    rw [run_append_singleton]
    cases e with
    | left j => exact inv.left ordered.above_left
    | right j => exact inv.right ordered.above_right
    | pass => exact inv.pass

/-! ## Which keys are paired -/

/-- Until the other stream reaches `k`, the buffer ends with the latest keys from `k` on. -/
theorem left_ends_with (size : Nat) {events : List (Event K)} (ordered : Ordered events) {k : K}
    (ahead : ∀ j ∈ rights events, j < k) :
    ∃ old, (run size events).left = old ++ ((lefts events).filter (k ≤ ·)).rtake size ∧
      ∀ j ∈ old, j < k := by
  induction events using List.reverseRecOn with
  | nil => exact ⟨[], by simp [run, lefts], by simp⟩
  | append_singleton events e ih =>
    have inv := invariant_run size ordered.of_append
    have before : ∀ j ∈ rights events, j < k := by
      intro j earlier
      apply ahead
      rw [rights_append]
      exact List.mem_append_left _ earlier
    obtain ⟨old, ends, below⟩ := ih ordered.of_append before
    rw [run_append_singleton, lefts_append, List.filter_append]
    cases e with
    | left j =>
      have above := ordered.above_left
      have fresh : ∀ i ∈ (run size events).left, i < j := fun i held =>
        above i (inv.left_received i held)
      change ∃ old, buffer size _ j = old ++ (_ ++ [j].filter (k ≤ ·)).rtake size ∧ _
      rw [buffer_fresh fresh, ends]
      by_cases from_k : k ≤ j
      · refine ⟨old.rtake (size - (((lefts events).filter (k ≤ ·)).rtake size ++ [j]).length), ?_, ?_⟩
        · rw [List.append_assoc, rtake_append, rtake_concat]
          simp [from_k]
        · intro i held
          exact below i ((rtake_sublist _ _).subset held)
      · have behind := not_le.mp from_k
        have none : (lefts events).filter (k ≤ ·) = [] := by
          apply List.filter_eq_nil_iff.mpr
          intro i earlier
          simp only [decide_eq_true_eq, not_le]
          exact (above i earlier).trans behind
        refine ⟨(old ++ [j]).rtake size, ?_, ?_⟩
        · simp [none, from_k]
        · intro i held
          rcases List.mem_append.mp ((rtake_sublist _ _).subset held) with earlier | last
          · exact below i earlier
          · rw [List.mem_singleton.mp last]
            exact behind
    | right j =>
      refine ⟨old, ?_, below⟩
      simp only [lefts_right, List.filter_nil, List.append_nil]
      exact ends
    | pass =>
      refine ⟨old.filter (· ∉ (run size events).right), ?_, ?_⟩
      · have kept : (((lefts events).filter (k ≤ ·)).rtake size).filter
            (· ∉ (run size events).right) = ((lefts events).filter (k ≤ ·)).rtake size := by
          apply List.filter_eq_self.mpr
          intro i latest
          have from_k := List.of_mem_filter ((rtake_sublist _ _).subset latest)
          simp only [decide_eq_true_eq] at from_k ⊢
          intro paired
          exact absurd (before i (inv.right_received i paired)) (not_lt.mpr from_k)
        change (run size events).left.filter _ = _
        rw [ends, List.filter_append, kept]
        simp
      · intro j held
        exact below j (List.mem_of_mem_filter held)

/-- A received key is still held exactly if fewer than `size` have come after it. -/
theorem held_iff (size : Nat) {events : List (Event K)} (ordered : Ordered events) {k : K}
    (ahead : ∀ j ∈ rights events, j < k) (received : k ∈ lefts events) :
    k ∈ (run size events).left ↔ (lefts events).countP (k < ·) < size := by
  obtain ⟨old, ends, below⟩ := left_ends_with size ordered ahead
  have increasing := ordered.lefts
  have first : (lefts events).filter (k ≤ ·) = k :: (lefts events).filter (k < ·) := by
    generalize lefts events = l at received increasing
    induction l with
    | nil => cases received
    | cons j rest ih =>
      obtain ⟨above, increasing⟩ := List.pairwise_cons.mp increasing
      rcases List.mem_cons.mp received with rfl | later
      · have all : rest.filter (k ≤ ·) = rest.filter (k < ·) := by
          apply List.filter_congr
          intro i member
          simp [above i member, (above i member).le]
        simp [all]
      · have behind : j < k := above k later
        simp [not_le.mpr behind, not_lt.mpr behind.le, ih later increasing]
  have fresh : k ∉ (lefts events).filter (k < ·) := by simp
  rw [ends, List.mem_append, first, mem_rtake_cons fresh, ← List.countP_eq_length_filter]
  constructor
  · rintro (held | few)
    · exact absurd (below k held) (lt_irrefl k)
    · exact few
  · exact .inr

/-- A key that is neither held nor received again is never given out. -/
theorem lost {size : Nat} {s : State K} {k : K} (events : List (Event K)) (gone : k ∉ s.left)
    (never : k ∉ lefts events) : k ∈ (events.foldl (step size) s).out ↔ k ∈ s.out := by
  induction events generalizing s with
  | nil => rfl
  | cons e rest ih =>
    have never' : k ∉ lefts rest := by
      intro later
      exact never ((List.sublist_cons_self e rest).filterMap _ |>.subset later)
    rw [List.foldl_cons, ih ?_ never']
    · cases e with
      | left j => rfl
      | right j => rfl
      | pass =>
        simp only [step, List.mem_append, State.mem_common]
        tauto
    · cases e with
      | left j =>
        intro held
        rcases mem_buffer held with before | rfl
        · exact gone before
        · exact never (by simp [lefts, Event.left?])
      | right j => exact gone
      | pass => exact fun held => gone (List.mem_of_mem_filter held)

theorem run_append (size : Nat) (events events' : List (Event K)) :
    run size (events ++ events') = events'.foldl (step size) (run size events) := by
  simp [run]

/-- The latest key is held. -/
theorem mem_buffer_self {size : Nat} (room : 1 ≤ size) {keys : List K} {k : K}
    (fresh : ∀ j ∈ keys, j < k) : k ∈ buffer size keys k := by
  obtain ⟨n, rfl⟩ : ∃ n, size = n + 1 := ⟨size - 1, by omega⟩
  rw [buffer_fresh fresh, List.rtake_concat_succ]
  simp

/-- The loss bound, for a key whose second half comes on the right and a pass after it. -/
theorem paired_right_iff {size : Nat} (room : 1 ≤ size) {before after : List (Event K)} {k : K}
    (ordered : Ordered (before ++ .right k :: .pass :: after)) (received : k ∈ lefts before) :
    k ∈ (run size (before ++ .right k :: .pass :: after)).out ↔
      (lefts before).countP (k < ·) < size := by
  have so_far : Ordered (before ++ [.right k]) := by
    rw [List.append_cons] at ordered
    exact ordered.of_append
  have inv := invariant_run size so_far.of_append
  have above := so_far.above_right
  have held : k ∈ (run size before).left ↔ (lefts before).countP (k < ·) < size :=
    held_iff size so_far.of_append above received
  have there : k ∈ buffer size (run size before).right k :=
    mem_buffer_self room fun j earlier => above j (inv.right_received j earlier)
  have not_yet : k ∉ (run size before).out := by
    intro given
    exact lt_irrefl k (above k (inv.out_received k given).2)
  have never : k ∉ lefts after := by
    intro again
    have increasing := ordered.lefts
    rw [lefts_append, List.pairwise_append] at increasing
    have later : k ∈ lefts (Event.right k :: Event.pass :: after) := again
    exact lt_irrefl k (increasing.2.2 k received k later)
  rw [run_append, List.foldl_cons, List.foldl_cons]
  generalize run size before = s at held there not_yet
  have gone : k ∉ (step size (step size s (.right k)) .pass).left := by
    intro still
    have parted := List.of_mem_filter still
    exact (of_decide_eq_true parted) there
  rw [lost after gone never, ← held]
  change k ∈ s.out ++ _ ↔ _
  rw [List.mem_append, State.mem_common]
  constructor
  · rintro (given | ⟨held, -⟩)
    · exact absurd given not_yet
    · exact held
  · exact fun held => .inr ⟨held, there⟩

theorem paired_left_iff {size : Nat} (room : 1 ≤ size) {before after : List (Event K)} {k : K}
    (ordered : Ordered (before ++ .left k :: .pass :: after)) (received : k ∈ rights before) :
    k ∈ (run size (before ++ .left k :: .pass :: after)).out ↔
      (rights before).countP (k < ·) < size := by
  have swapped := ordered.swap
  rw [List.map_append] at swapped
  have paired := paired_right_iff room swapped (by rw [lefts_swap]; exact received)
  have other : (before.map Event.swap) ++ .right k :: .pass :: after.map Event.swap =
      (before ++ .left k :: .pass :: after).map Event.swap := by simp [Event.swap]
  rw [lefts_swap] at paired
  change k ∈ (run size (before.map Event.swap ++ .right k :: .pass :: after.map Event.swap)).out ↔ _
    at paired
  rw [other, run_swap] at paired
  exact paired

end Pairing
