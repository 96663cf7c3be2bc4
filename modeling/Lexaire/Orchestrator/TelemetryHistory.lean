import Mathlib.Data.Int.Order.Basic
import Mathlib.Data.List.Basic
import Mathlib.Data.List.Induction
import Mathlib.Order.Basic
import Lexaire.Json

/-! The recent telemetry that a context carries. The telemetry thread appends each sample
with its time of arrival, and prunes by that time; a context takes the whole buffer, at a
time of its own. -/
namespace Lexaire.Orchestrator

section Pruning
variable {α : Type}

/-- Where `p` holds of everything before what it holds of, dropping is filtering. -/
theorem dropWhile_eq_filter {p : α → Bool} {l : List α}
    (down : l.Pairwise fun x y => p y = true → p x = true) :
    l.dropWhile p = l.filter (!p ·) := by
  induction l with
  | nil => rfl
  | cons x l ih =>
    obtain ⟨first, rest⟩ := List.pairwise_cons.mp down
    cases holds : p x with
    | true => simpa [holds] using ih rest
    | false =>
      have others : ∀ y ∈ l, (!p y) = true := by
        intro y member
        cases later : p y with
        | true => rw [first y member later] at holds; cases holds
        | false => rfl
      simp [holds, List.filter_eq_self.mpr others]

end Pruning

/-! ## Arrivals and uses -/

variable {T : Type}

/-- A telemetry header with its time of arrival. -/
abbrev Heard (T : Type) := T × Json

inductive TelemetryEvent (T : Type) where
  | arrives (now : T) (header : Json)
  | builds (now : T)

namespace TelemetryEvent

def now : TelemetryEvent T → T
  | .arrives now _ | .builds now => now

def heard? : TelemetryEvent T → Option (Heard T)
  | .arrives now header => some (now, header)
  | .builds _ => none

end TelemetryEvent

def arrived (events : List (TelemetryEvent T)) : List (Heard T) :=
  events.filterMap TelemetryEvent.heard?

/-- The time of the latest arrival. -/
def lastArrival? (events : List (TelemetryEvent T)) : Option T :=
  (arrived events).getLast?.map (·.1)

theorem mem_arrived {events : List (TelemetryEvent T)} {s : Heard T} (member : s ∈ arrived events) :
    ∃ event ∈ events, event.now = s.1 := by
  obtain ⟨event, among, heard⟩ := List.mem_filterMap.mp member
  cases event with
  | builds now => cases heard
  | arrives now header =>
    obtain rfl := Option.some.inj heard
    exact ⟨_, among, rfl⟩

theorem lastArrival?_mem {events : List (TelemetryEvent T)} {t : T}
    (last : lastArrival? events = some t) : ∃ event ∈ events, event.now = t := by
  obtain ⟨s, latest, rfl⟩ := Option.map_eq_some_iff.mp last
  exact mem_arrived (List.mem_of_getLast? latest)

theorem arrived_arrives (events : List (TelemetryEvent T)) (now : T) (header : Json) :
    arrived (events ++ [.arrives now header]) = arrived events ++ [(now, header)] := by
  simp [arrived, TelemetryEvent.heard?]

theorem lastArrival?_arrives (events : List (TelemetryEvent T)) (now : T) (header : Json) :
    lastArrival? (events ++ [.arrives now header]) = some now := by
  simp [lastArrival?, arrived_arrives]

variable [LinearOrder T]

/-- Events come in the order of their times. -/
def InOrder (events : List (TelemetryEvent T)) : Prop := events.Pairwise (·.now ≤ ·.now)

theorem InOrder.arrived {events : List (TelemetryEvent T)} (ordered : InOrder events) :
    (arrived events).Pairwise fun x y => x.1 ≤ y.1 := by
  refine List.Pairwise.filterMap TelemetryEvent.heard? ?_ ordered
  intro e e' before x heard y heard'
  cases e with
  | builds now => cases heard
  | arrives now header =>
    cases e' with
    | builds now => cases heard'
    | arrives now' header' =>
      obtain rfl := Option.some.inj heard
      obtain rfl := Option.some.inj heard'
      exact before

variable [Sub T]

/-! ## The buffer -/

/-- What the telemetry thread does with a decoded header at the time `now`. -/
def hearTelemetry (windowS : T) (history : List (Heard T)) (now : T) (header : Json) :
    List (Heard T) :=
  let cutoff := now - windowS
  (history ++ [(now, header)]).dropWhile (·.1 < cutoff)

/-- The `telemetry_history` of a context. -/
def telemetryHistory (history : List (Heard T)) : List Json := history.map (·.2)

def afterEvent (windowS : T) (history : List (Heard T)) : TelemetryEvent T → List (Heard T)
  | .arrives now header => hearTelemetry windowS history now header
  | .builds _ => history

/-- The buffer after some events. -/
def kept (windowS : T) (events : List (TelemetryEvent T)) : List (Heard T) :=
  events.foldl (afterEvent windowS) []

/-- Exactly the samples of the window that ends at `t`, oldest first. -/
def window (windowS : T) (events : List (TelemetryEvent T)) (t : T) : List Json :=
  ((arrived events).filter fun s => t - windowS ≤ s.1 ∧ s.1 ≤ t).map (·.2)

section
variable {windowS : T} {events : List (TelemetryEvent T)}

/-- What is in the window that ends now was in it at the latest arrival. -/
theorem window_shrinks (monotone : ∀ {s t : T}, s ≤ t → s - windowS ≤ t - windowS) {now : T}
    (before : ∀ event ∈ events, event.now ≤ now) {s : Heard T} (inside : now - windowS ≤ s.1) :
    (lastArrival? events).all (fun last => last - windowS ≤ s.1) = true := by
  cases latest : lastArrival? events with
  | none => rfl
  | some t =>
    obtain ⟨event, member, rfl⟩ := lastArrival?_mem latest
    simpa using (monotone (before event member)).trans inside

/-- Pruning a sorted buffer is filtering it. -/
theorem hearTelemetry_eq {history : List (Heard T)} {now : T} {header : Json}
    (sorted : (history ++ [(now, header)]).Pairwise fun x y => x.1 ≤ y.1) :
    hearTelemetry windowS history now header =
      (history ++ [(now, header)]).filter fun s => now - windowS ≤ s.1 := by
  have expires : (history ++ [(now, header)]).Pairwise fun x y =>
      decide (y.1 < now - windowS) = true → decide (x.1 < now - windowS) = true := by
    apply sorted.imp
    intro x y le expired
    rw [decide_eq_true_eq] at expired ⊢
    exact le.trans_lt expired
  rw [hearTelemetry, dropWhile_eq_filter expires]
  apply List.filter_congr
  intro s _
  rw [← decide_not, decide_eq_decide, not_lt]

/-- Of what has arrived, the buffer keeps what was in the window at the latest arrival.
Subtraction is only asked to keep the order of times, as it does also where it rounds. -/
theorem kept_eq (monotone : ∀ {s t : T}, s ≤ t → s - windowS ≤ t - windowS)
    (ordered : InOrder events) : kept windowS events =
      (arrived events).filter fun s => (lastArrival? events).all fun last => last - windowS ≤ s.1 := by
  induction events using List.reverseRecOn with
  | nil => rfl
  | append_singleton events event ih =>
    obtain ⟨earlier, -, before⟩ := List.pairwise_append.mp ordered
    have step : kept windowS (events ++ [event]) = afterEvent windowS (kept windowS events) event := by
      simp only [kept, List.foldl_append, List.foldl_cons, List.foldl_nil]
    rw [step, ih earlier]
    cases event with
    | builds now => simp [afterEvent, Orchestrator.arrived, lastArrival?, TelemetryEvent.heard?]
    | arrives now header =>
      have sorted := ordered.arrived
      rw [arrived_arrives] at sorted
      have pruned : List.Sublist (((Orchestrator.arrived events).filter fun s =>
          (lastArrival? events).all fun last => last - windowS ≤ s.1) ++ [(now, header)])
          (Orchestrator.arrived events ++ [(now, header)]) :=
        List.filter_sublist.append (List.Sublist.refl _)
      rw [arrived_arrives, lastArrival?_arrives, afterEvent, hearTelemetry_eq (sorted.sublist pruned),
        List.filter_append, List.filter_append, List.filter_filter]
      congr 1
      apply List.filter_congr
      intro s _
      by_cases inside : now - windowS ≤ s.1
      · have shown := window_shrinks monotone
          (fun event member => before event member _ (List.mem_singleton_self _)) inside
        simp [inside, shown]
      · simp [inside]

/-- A context built at `t` carries exactly the window that ends at `t` when, and only when,
no sample has left the window since the latest arrival. -/
theorem history_exact_iff (monotone : ∀ {s t : T}, s ≤ t → s - windowS ≤ t - windowS)
    {before after : List (TelemetryEvent T)} {t : T}
    (ordered : InOrder (before ++ .builds t :: after)) :
    telemetryHistory (kept windowS before) = window windowS before t ↔
      ∀ sample ∈ arrived before, ∀ last, lastArrival? before = some last →
        last - windowS ≤ sample.1 → t - windowS ≤ sample.1 := by
  obtain ⟨earlier, -, order⟩ := List.pairwise_append.mp ordered
  have past (event : TelemetryEvent T) (member : event ∈ before) : event.now ≤ t :=
    order event member _ List.mem_cons_self
  have whole : window windowS before t = ((arrived before).filter (t - windowS ≤ ·.1)).map (·.2) := by
    unfold window
    refine congrArg _ (List.filter_congr fun s member => ?_)
    obtain ⟨event, among, same⟩ := mem_arrived member
    simp [same ▸ past event among]
  rw [telemetryHistory, kept_eq monotone earlier, whole]
  constructor
  · intro same s member last latest fresh
    -- the window is a part of what is kept, so equal lengths make them equal
    have part : List.Sublist ((arrived before).filter (t - windowS ≤ ·.1))
        ((arrived before).filter fun s => (lastArrival? before).all fun last => last - windowS ≤ s.1) := by
      apply List.monotone_filter_right (arrived before)
      intro s inside
      obtain ⟨event, among, rfl⟩ := lastArrival?_mem latest
      simp only [latest, Option.all_some, decide_eq_true_eq] at inside ⊢
      exact (monotone (past event among)).trans inside
    have lengths := congrArg List.length same
    simp only [List.length_map] at lengths
    have equal := part.eq_of_length lengths.symm
    have among : s ∈ (arrived before).filter fun s =>
        (lastArrival? before).all fun last => last - windowS ≤ s.1 :=
      List.mem_filter.mpr ⟨member, by simpa [latest] using fresh⟩
    rw [← equal] at among
    simpa using (List.mem_filter.mp among).2
  · intro fresh
    refine congrArg _ (List.filter_congr fun s member => ?_)
    cases latest : lastArrival? before with
    | none =>
      rw [lastArrival?, Option.map_eq_none_iff, List.getLast?_eq_none_iff] at latest
      rw [latest] at member
      cases member
    | some last =>
      obtain ⟨event, among, rfl⟩ := lastArrival?_mem latest
      by_cases inside : t - windowS ≤ s.1
      · simp [inside, (monotone (past event among)).trans inside]
      · have gone : ¬ event.now - windowS ≤ s.1 := fun old =>
          inside (fresh s member _ latest old)
        simp [inside, gone]

end

/-- Samples at 0 and 6 seconds: a context at 7 rightly has the second one only. -/
theorem history_exact_iff_live :
    telemetryHistory (kept (5 : Int) [.arrives 0 .null, .arrives 6 (.integer 1)]) =
      window (5 : Int) [.arrives 0 .null, .arrives 6 (.integer 1)] 7 := by
  refine (@history_exact_iff Int _ _ 5 (fun le => Int.sub_le_sub_right le 5) _ [] 7 ?_).mpr ?_
  · simp [InOrder, TelemetryEvent.now]
  · simp [arrived, lastArrival?, TelemetryEvent.heard?]

/-- A stream that stopped ten seconds ago is still shown whole. -/
theorem stalled_stream_kept : ¬ ∀ (windowS : Int) (before after : List (TelemetryEvent Int)) (t : Int),
    0 ≤ windowS → InOrder (before ++ .builds t :: after) →
    telemetryHistory (kept windowS before) = window windowS before t := by
  intro claimed
  have same := claimed 5 [.arrives 0 .null] [] 10 (by decide) (by simp [InOrder, TelemetryEvent.now])
  exact absurd (congrArg List.length same) (by decide)

end Lexaire.Orchestrator
