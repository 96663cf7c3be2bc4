import Lexaire.Core.Alone
import Lexaire.Orchestrator.Mission

/-! The audit trail of a mission. Beside the mission object the state keeps a log
of the decisions and of the dispatched calls, in the order in which they happen;
the trail is compared with the log at every point of a run. -/
namespace Lexaire.Orchestrator
open Atomic Text

inductive Entry where
  | decided (decision : VlmDecision)
  | called (tc : ToolCall) (result : ToolResult)

structure Ledger where
  mission : OrchestratorMission := { goalText := "" }
  log : List Entry := []

/-- `ok` and `error` agree, as they do in every result of a dispatch. -/
def Sane (r : ToolResult) : Prop :=
  (r.ok = true → r.error = .null) ∧
    (r.ok = false → ∃ text, text ≠ "" ∧ r.error = .string text)

def Ledger.after (s : Ledger) : (op : Op) → op.Answer → Ledger
  | .newMission goal, _ => { s with mission := { goalText := goal } }
  | .record step executed, _ => { s with mission := s.mission.record step executed }
  | .vlmResult, .ok decision => { s with log := s.log ++ [.decided decision] }
  | .dispatchToolCall tc, result => { s with log := s.log ++ [.called tc result] }
  | _, _ => s

/-- Signals, decisions and sane results come as they like. -/
def Ledger.Possible (s : Ledger) : (op : Op) → op.Answer → Prop
  | .mission, m => m = s.mission
  | .dispatchToolCall _, result => Sane result
  | _, _ => True

def Ledger.performs (op : Op) (s : Ledger) (r : op.Answer) (s' : Ledger) : Prop :=
  s.Possible op r ∧ s' = s.after op r

/-- A decision and what of its batch was dispatched. -/
structure Round where
  decision : VlmDecision
  flown : List (ToolCall × ToolResult) := []

def Round.entries (round : Round) : List Entry :=
  .decided round.decision :: round.flown.map fun call => .called call.1 call.2

/-- Only a prefix of the batch, and every call of it but the last one went well. -/
structure Round.Flown (round : Round) : Prop where
  isPrefix : round.flown.map (·.1) <+: round.decision.toolCalls
  went_on : ∀ call ∈ round.flown.dropLast, call.2.ok = true ∧ call.1.name ∉ terminalTools

/-- One entry for each call of the batch: results first, then skips. -/
def Round.Audited (round : Round) (steps : List Step) : Prop :=
  ∃ reason, startsWith "skipped:" reason = true ∧
    steps = round.flown.map (fun call => executedStep call.1 call.2) ++
      (round.decision.toolCalls.drop round.flown.length).map (skippedStep reason)

def Entry.isCall : Entry → Bool
  | .called _ _ => true
  | .decided _ => false

def calls (log : List Entry) : Nat := log.countP (·.isCall)

/-- After such a result no call may follow. -/
def Final (tc : ToolCall) (result : ToolResult) : Prop :=
  (result.ok = true ∧ tc.name ∈ terminalTools) ∨ transportFailure result.error = true

def Over (log : List Entry) : Prop := ∃ tc result, .called tc result ∈ log ∧ Final tc result

/-- The log is a sequence of rounds. -/
structure Rounds (log : List Entry) (rounds : List Round) : Prop where
  split : log = rounds.flatMap (·.entries)
  flown : ∀ round ∈ rounds, round.Flown

/-- The whole trail is there. -/
def Complete (s : Ledger) : Prop :=
  ∃ rounds segments, Rounds s.log rounds ∧ List.Forall₂ Round.Audited rounds segments ∧
    s.mission.stepHistory = segments.flatten

/-- Between a dispatch and its record the count is one behind. -/
def Counted (op : Option Op) (s : Ledger) : Prop :=
  match op with
  | some (.record _ true) => s.mission.currentStep + 1 = calls s.log
  | some (.newMission _) => True
  | _ => s.mission.currentStep = calls s.log

/-- What holds when `op` comes next. -/
structure Sound (op : Op) (s : Ledger) : Prop where
  rounds : ∃ rounds, Rounds s.log rounds
  counted : Counted (some op) s
  notOver : ∀ tc, op = .dispatchToolCall tc → ¬ Over s.log
  complete : ∀ ctx, op = .vlmSubmit ctx → Complete s

/-- A mission from whose trail nothing is missing. -/
structure Settled (s : Ledger) : Prop where
  complete : Complete s
  counted : s.mission.currentStep = calls s.log

abbrev Keeps {α : Type} (post : α → Ledger → Prop) (p : Code α) (s : Ledger) : Prop :=
  p.Holds (.alone Ledger.performs) Sound (fun result s => ∀ a, result = .ok a → post a s) s

section Rules
variable {α β : Type} {post : α → Ledger → Prop} {s : Ledger}

theorem keeps_done {a : α} (h : post a s) : Keeps post (.done a) s :=
  .alone_done fun _ same => Except.ok.inj same ▸ h

theorem keeps_bind {mid : β → Ledger → Prop} {p : Code β} {f : β → Code α}
    (first : Keeps mid p s) (rest : ∀ b s, mid b s → Keeps post (f b) s) :
    Keeps post (p >>= f) s :=
  .bind first (fun b s h => rest b s (h b rfl)) fun e => e.elim

theorem keeps_step {op : Op} {next : op.Answer → Code α} (now : Sound op s)
    (after : ∀ r, s.Possible op r → Keeps post (next r) (s.after op r)) :
    Keeps post (.step op next) s :=
  .alone_step now fun r _ effect => effect.2 ▸ after r effect.1

end Rules

/-- Operations that neither the trail nor the log sees. -/
def Op.silent : Op → Bool
  | .stopIsSet | .preemptIsSet | .preemptClear | .queueEmpty | .clearBridgeOffline | .bridgeOffline
  | .setArmAuthorized _ | .publishStatus _ | .newRequestId | .mission | .vlmWait
  | .appendHistory _ => true
  | _ => false

section
variable {s : Ledger}

theorem after_silent {op : Op} (silent : op.silent = true) (r : op.Answer) : s.after op r = s := by
  cases op <;> first | rfl | cases silent

theorem sound_silent {op : Op} (silent : op.silent = true) (rounds : ∃ rounds, Rounds s.log rounds)
    (counted : s.mission.currentStep = calls s.log) : Sound op s where
  rounds := rounds
  counted := by cases op <;> first | exact counted | cases silent
  notOver := by
    rintro tc rfl
    cases silent
  complete := by
    rintro ctx rfl
    cases silent

theorem keeps_silent {α : Type} {post : α → Ledger → Prop} {op : Op} {next : op.Answer → Code α}
    (silent : op.silent = true) (rounds : ∃ rounds, Rounds s.log rounds)
    (counted : s.mission.currentStep = calls s.log)
    (rest : ∀ r, s.Possible op r → Keeps post (next r) s) : Keeps post (.step op next) s :=
  keeps_step (sound_silent silent rounds counted) fun r possible =>
    (after_silent silent r).symm ▸ rest r possible

end

/-- Inside a batch, with some calls flown and the others still to come. -/
structure InBatch (s : Ledger) (decision : VlmDecision) (flown : List (ToolCall × ToolResult))
    (rest : List ToolCall) : Prop where
  batch : decision.toolCalls = flown.map (·.1) ++ rest
  trail : ∃ rounds segments,
    s.log = rounds.flatMap (·.entries) ++ Round.entries { decision, flown } ∧
    (∀ round ∈ rounds, round.Flown) ∧ List.Forall₂ Round.Audited rounds segments ∧
    s.mission.stepHistory = segments.flatten ++ flown.map fun call => executedStep call.1 call.2
  round : Round.Flown { decision, flown }
  counted : s.mission.currentStep = calls s.log

/-- The calls that were not made, recorded one after the other. -/
def Ledger.skip (s : Ledger) (reason : String) (skipped : List ToolCall) : Ledger :=
  { s with mission := { s.mission with
      stepHistory := s.mission.stepHistory ++ skipped.map (skippedStep reason) } }

section Batch
variable {s : Ledger} {decision : VlmDecision} {flown : List (ToolCall × ToolResult)}
  {rest : List ToolCall}

theorem Rounds.snoc {log : List Entry} {rounds : List Round} {round : Round}
    (before : ∀ round ∈ rounds, round.Flown) (last : round.Flown)
    (split : log = rounds.flatMap (·.entries) ++ round.entries) : Rounds log (rounds ++ [round]) where
  split := by simpa using split
  flown := by
    intro other member
    rcases List.mem_append.mp member with earlier | here
    · exact before other earlier
    · obtain rfl := List.mem_singleton.mp here
      exact last

theorem InBatch.rounds (inside : InBatch s decision flown rest) : ∃ rounds, Rounds s.log rounds := by
  obtain ⟨rounds, segments, split, before, -⟩ := inside.trail
  exact ⟨_, .snoc before inside.round split⟩

/-- Skipping what is left closes the round. -/
theorem InBatch.skip (inside : InBatch s decision flown rest) {reason : String}
    (skips : startsWith "skipped:" reason = true) : Settled (s.skip reason rest) where
  counted := inside.counted
  complete := by
    obtain ⟨rounds, segments, split, before, audited, history⟩ := inside.trail
    have log : Rounds (s.skip reason rest).log (rounds ++ [⟨decision, flown⟩]) :=
      .snoc before inside.round split
    refine ⟨_, segments ++ [flown.map (fun call => executedStep call.1 call.2) ++
      rest.map (skippedStep reason)], log, List.rel_append audited (.cons ?_ .nil), ?_⟩
    · refine ⟨reason, skips, ?_⟩
      have left : decision.toolCalls.drop flown.length = rest := by
        rw [inside.batch, List.drop_left' (List.length_map _)]
      rw [left]
    · simp [Ledger.skip, history]

theorem recordSkipped_keeps {α : Type} {post : α → Ledger → Prop} {f : Unit → Code α}
    (reason : String) (skipped : List ToolCall) (rounds : ∃ rounds, Rounds s.log rounds)
    (counted : s.mission.currentStep = calls s.log)
    (after : Keeps post (f ()) (s.skip reason skipped)) :
    Keeps post (recordSkipped reason skipped >>= f) s := by
  induction skipped generalizing s with
  | nil =>
    have same : s.skip reason [] = s := by simp [Ledger.skip]
    rw [same] at after
    exact after
  | cons tc rest ih =>
    refine keeps_step ⟨rounds, counted, ?_, ?_⟩ fun _ _ => ?_
    · rintro tc' absurd
      cases absurd
    · rintro ctx absurd
      cases absurd
    · apply ih (s := s.after (.record (skippedStep reason tc) false) ()) rounds counted
      have same : (s.after (.record (skippedStep reason tc) false) ()).skip reason rest =
          s.skip reason (tc :: rest) := by
        simp [Ledger.after, Ledger.skip, OrchestratorMission.record]
      rw [same]
      exact after

/-- A call and its record, before the loop looks at the result. -/
theorem InBatch.fly {tc : ToolCall} (inside : InBatch s decision flown (tc :: rest))
    (well : ∀ call ∈ flown, call.2.ok = true ∧ call.1.name ∉ terminalTools) (result : ToolResult) :
    InBatch ((s.after (.dispatchToolCall tc) result).after
      (.record (executedStep tc result) true) ()) decision (flown ++ [(tc, result)]) rest where
  batch := by simpa using inside.batch
  trail := by
    obtain ⟨rounds, segments, split, before, audited, history⟩ := inside.trail
    refine ⟨rounds, segments, ?_, before, audited, ?_⟩
    · simp [Ledger.after, split, Round.entries]
    · simp [Ledger.after, OrchestratorMission.record, history]
  round := by
    refine ⟨?_, by simpa using well⟩
    exact ⟨rest, by simpa using inside.batch.symm⟩
  counted := by
    have counted := inside.counted
    simp [Ledger.after, OrchestratorMission.record, calls, Entry.isCall, List.countP_append] at counted ⊢
    exact counted

/-- A batch that has gone well so far. -/
structure Going (s : Ledger) (decision : VlmDecision) (flown : List (ToolCall × ToolResult))
    (rest : List ToolCall) : Prop where
  inside : InBatch s decision flown rest
  well : ∀ call ∈ flown, call.2.ok = true ∧ call.1.name ∉ terminalTools
  notOver : ¬ Over s.log

/-- How a batch leaves the ledger: only a batch that lets the mission go on may
be followed by another. -/
def BatchEnd.Leaves (ended : BatchEnd) (s : Ledger) : Prop :=
  Settled s ∧ (ended = .failed ∨ ended = .through → ¬ Over s.log)

theorem not_final_of_verdict {tc : ToolCall} {result : ToolResult} (sane : Sane result)
    (judged : verdict tc result = .failed ∨ verdict tc result = .next) : ¬ Final tc result := by
  unfold verdict at judged
  rintro (⟨accepted, terminal⟩ | lost)
  · have silent := sane.1 accepted
    simp [silent, accepted, transportFailure, terminal] at judged
  · simp [lost] at judged

theorem over_append_called {log : List Entry} {tc : ToolCall} {result : ToolResult}
    (before : ¬ Over log) (last : ¬ Final tc result) : ¬ Over (log ++ [.called tc result]) := by
  rintro ⟨tc', result', member, final⟩
  rcases List.mem_append.mp member with earlier | here
  · exact before ⟨tc', result', earlier, final⟩
  · obtain ⟨rfl, rfl⟩ := Entry.called.inj (List.mem_singleton.mp here)
    exact last final

/-- A call that went through and is no failure went well. -/
theorem ok_of_verdict (tc : ToolCall) {result : ToolResult} (sane : Sane result)
    (there : verdict tc result ≠ .offline) (fine : verdict tc result ≠ .failed) :
    result.ok = true := by
  cases accepted : result.ok with
  | true => rfl
  | false =>
    obtain ⟨text, -, error⟩ := sane.2 accepted
    unfold verdict at there fine
    split at there
    · exact absurd rfl there
    · next reached =>
      rw [if_neg reached, if_pos (by simp [accepted, error])] at fine
      exact absurd rfl fine

/-- Which of the calls that went well end a mission. -/
theorem verdict_ok {tc : ToolCall} {result : ToolResult} (accepted : result.ok = true)
    (there : verdict tc result ≠ .offline) :
    verdict tc result = if terminalTools.contains tc.name then .terminal else .next := by
  unfold verdict at there ⊢
  split at there
  · exact absurd rfl there
  · next reached =>
    rw [if_neg reached, if_neg (by simp [accepted])]

/-- A call that lets the batch go on went well and was not terminal. -/
theorem verdict_next {tc : ToolCall} {result : ToolResult} (sane : Sane result)
    (judged : verdict tc result = .next) : result.ok = true ∧ tc.name ∉ terminalTools := by
  have accepted := ok_of_verdict tc sane (by simp [judged]) (by simp [judged])
  refine ⟨accepted, fun terminal => ?_⟩
  have same := (verdict_ok accepted (by simp [judged])).symm.trans judged
  simp [terminal] at same

theorem keeps_interrupted {α : Type} {post : α → Ledger → Prop} {f : Bool → Code α}
    (rounds : ∃ rounds, Rounds s.log rounds) (counted : s.mission.currentStep = calls s.log)
    (rest : ∀ b, Keeps post (f b) s) : Keeps post (interrupted >>= f) s := by
  apply keeps_silent rfl rounds counted
  intro stop _
  cases stop with
  | true => exact rest true
  | false => exact keeps_silent rfl rounds counted fun preempt _ => rest preempt

theorem dispatchBatch_keeps (going : Going s decision flown rest) :
    Keeps BatchEnd.Leaves (dispatchBatch rest) s := by
  induction rest generalizing s flown with
  | nil =>
    have same : s.skip "skipped:" [] = s := by simp [Ledger.skip]
    have settled : Settled (s.skip "skipped:" []) := going.inside.skip (by decide)
    rw [same] at settled
    exact keeps_done ⟨settled, fun _ => going.notOver⟩
  | cons tc rest ih =>
    have rounds := going.inside.rounds
    have counted := going.inside.counted
    unfold dispatchBatch
    apply keeps_interrupted rounds counted
    intro stop
    cases stop with
    | true =>
      refine recordSkipped_keeps _ _ rounds counted (keeps_done ⟨?_, by simp⟩)
      exact going.inside.skip (by decide)
    | false =>
      refine keeps_step ⟨rounds, counted, fun _ _ => going.notOver, by simp⟩ fun result sane => ?_
      have flying := going.inside.fly going.well result
      have behind : s.mission.currentStep + 1 = calls (s.log ++ [.called tc result]) := by
        simp [calls, Entry.isCall, counted]
      have recorded : Sound (.record (executedStep tc result) true)
          (s.after (.dispatchToolCall tc) result) :=
        ⟨flying.rounds, behind, by simp, by simp⟩
      apply keeps_step recorded
      intro _ _
      have flown_rounds := flying.rounds
      have flown_counted := flying.counted
      cases judged : verdict tc result with
      | offline =>
        exact recordSkipped_keeps _ _ flown_rounds flown_counted
          (keeps_done ⟨flying.skip (by decide), by simp⟩)
      | failed =>
        have going_on := over_append_called going.notOver
          (not_final_of_verdict sane (.inl judged))
        apply keeps_silent rfl flown_rounds flown_counted
        intro mission _
        apply recordSkipped_keeps _ _ flown_rounds flown_counted
        split
        · exact keeps_done ⟨flying.skip (by decide), by simp⟩
        · exact keeps_done ⟨flying.skip (by decide), fun _ => going_on⟩
      | terminal =>
        exact recordSkipped_keeps _ _ flown_rounds flown_counted
          (keeps_done ⟨flying.skip (by decide), by simp⟩)
      | next =>
        have last := verdict_next sane judged
        refine ih ⟨flying, ?_, over_append_called going.notOver
          (not_final_of_verdict sane (.inr judged))⟩
        intro call member
        rcases List.mem_append.mp member with earlier | here
        · exact going.well call earlier
        · obtain rfl := List.mem_singleton.mp here
          exact last

end Batch

theorem Settled.rounds {s : Ledger} (settled : Settled s) : ∃ rounds, Rounds s.log rounds := by
  obtain ⟨rounds, -, log, -⟩ := settled.complete
  exact ⟨rounds, log⟩

/-- A decision has come in, and none of its calls has been made. -/
theorem Settled.decide {s : Ledger} (settled : Settled s) (notOver : ¬ Over s.log)
    (decision : VlmDecision) :
    Going (s.after .vlmResult (.ok decision)) decision [] decision.toolCalls where
  inside := by
    obtain ⟨rounds, segments, log, audited, history⟩ := settled.complete
    refine ⟨by simp, ⟨rounds, segments, ?_, log.flown, audited, by simpa [Ledger.after] using history⟩, ?_, ?_⟩
    · simp [Ledger.after, Round.entries, log.split]
    · exact ⟨List.nil_prefix, by simp⟩
    · simp [Ledger.after, calls, Entry.isCall, settled.counted]
  well := by simp
  notOver := by
    rintro ⟨tc, result, member, final⟩
    rcases List.mem_append.mp member with earlier | here
    · exact notOver ⟨tc, result, earlier, final⟩
    · cases List.mem_singleton.mp here

theorem keeps_of_silent {α : Type} {p : Code α} (silent : p.All (·.silent = true)) {s : Ledger}
    (settled : Settled s) : Keeps (fun _ => Settled) p s := by
  refine .of_all (Program.alone_stable Settled) silent ?_ ?_ ?_ settled
  · rintro op s r _ quiet settled ⟨-, rfl⟩
    rwa [after_silent quiet]
  · exact fun op s quiet settled => sound_silent quiet settled.rounds settled.counted
  · exact fun result s settled a _ => settled

/-- Waiting for the VLM, and what may cut it short, leaves the ledger alone. -/
theorem keeps_overtaken {α : Type} {post : α → Ledger → Prop} {f : Bool → Code α} {s : Ledger}
    (rounds : ∃ rounds, Rounds s.log rounds) (counted : s.mission.currentStep = calls s.log)
    (rest : ∀ b, Keeps post (f b) s) : Keeps post (overtaken >>= f) s := by
  apply keeps_silent rfl rounds counted
  intro preempt _
  cases preempt with
  | true => exact rest true
  | false => exact keeps_silent rfl rounds counted fun empty _ => rest (!empty)

theorem decisionLoop_keeps (text : String) (left : Nat) (decisionCount : Nat) {s : Ledger}
    (settled : Settled s) (notOver : ¬ Over s.log) :
    Keeps (fun _ => Settled) (decisionLoop text left decisionCount) s := by
  induction left generalizing decisionCount s with
  | zero => exact keeps_done settled
  | succ left ih =>
    have rounds := settled.rounds
    have counted := settled.counted
    apply keeps_silent rfl rounds counted
    intro stop _
    cases stop with
    | true => exact keeps_done settled
    | false =>
      apply keeps_overtaken rounds counted
      intro overtaken
      cases overtaken with
      | true => exact keeps_done settled
      | false =>
        apply keeps_silent rfl rounds counted
        intro mission _
        apply keeps_silent rfl rounds counted
        intro _ _
        refine keeps_step ⟨rounds, counted, by simp, fun _ _ => settled.complete⟩ fun _ _ => ?_
        apply keeps_silent rfl rounds counted
        intro _ _
        apply keeps_silent rfl rounds counted
        intro preempted _
        cases preempted with
        | true => exact keeps_done settled
        | false =>
          apply keeps_silent rfl rounds counted
          intro stop _
          cases stop with
          | true => exact keeps_done settled
          | false =>
            refine keeps_step ⟨rounds, counted, by simp, by simp⟩ fun result _ => ?_
            cases result with
            | error what => exact keeps_done settled
            | ok decision =>
              have going := settled.decide notOver decision
              change Keeps _ (if decision.toolCalls = [] then _ else _) _
              by_cases idle : decision.toolCalls = []
              · have closed : Settled ((s.after .vlmResult (.ok decision)).skip "skipped:" []) :=
                  (idle ▸ going.inside).skip (by decide)
                have same (s : Ledger) : s.skip "skipped:" [] = s := by simp [Ledger.skip]
                rw [same] at closed
                rw [if_pos idle]
                split
                · exact keeps_done closed
                · exact keeps_done closed
              · rw [if_neg idle]
                have decided := going.inside
                apply keeps_silent rfl decided.rounds decided.counted
                intro _ _
                change Keeps _ (dispatchBatch decision.toolCalls >>= _) _
                apply keeps_bind (dispatchBatch_keeps going)
                intro ended s' leaves
                obtain ⟨closed, open_⟩ := leaves
                cases ended with
                | failed => exact ih (decisionCount + 1) closed (open_ (.inl rfl))
                | through => exact ih (decisionCount + 1) closed (open_ (.inr rfl))
                | preempted => exact keeps_done closed
                | offline => exact keeps_done closed
                | stuck => exact keeps_done closed
                | terminal tool => exact keeps_done closed

theorem endReason_silent (maxSteps : Int) (ended : LoopEnd) :
    (endReason maxSteps ended).All (·.silent = true) :=
  endReason_all (by rfl) (by rfl) maxSteps ended

theorem mission_keeps (maxSteps : Int) (text : String) :
    Keeps (fun _ => Settled) (mission maxSteps text) {} := by
  have nothing : ∃ rounds, Rounds [] rounds := ⟨[], rfl, by simp⟩
  refine keeps_step ⟨nothing, trivial, by simp, by simp⟩ fun _ _ => ?_
  have settled : Settled { mission := { goalText := text } } :=
    ⟨⟨[], [], ⟨rfl, by simp⟩, .nil, rfl⟩, rfl⟩
  have notOver : ¬ Over [] := by simp [Over]
  change Keeps _ (decisionLoop text maxSteps.toNat 0 >>= _) _
  apply keeps_bind (decisionLoop_keeps text maxSteps.toNat 0 settled notOver)
  intro ended s closed
  apply keeps_of_silent _ closed
  refine .bind (endReason_silent maxSteps ended) fun reason => ?_
  simp only [call_bind, Program.all_step, Program.all_ite]
  exact ⟨rfl, fun m => ⟨rfl, fun _ => ⟨fun _ => ⟨rfl, fun _ => trivial⟩,
    fun _ => ⟨fun _ => trivial, fun _ => ⟨rfl, fun _ => trivial⟩⟩⟩⟩⟩

def nextOp : Code Unit → Option Op
  | .step op _ => some op
  | _ => none

/-- What can be read off the ledger at a point of a run, from what comes next. -/
structure Audit (p : Code Unit) (s : Ledger) : Prop where
  rounds : ∃ rounds, Rounds s.log rounds
  counted : Counted (nextOp p) s
  notOver : ∀ tc, nextOp p = some (.dispatchToolCall tc) → ¬ Over s.log
  complete : (∃ ctx, nextOp p = some (.vlmSubmit ctx)) ∨ nextOp p = none → Complete s

/-- At every point of every run of a mission the calls made are prefixes of their
batches and counted, no call follows one that ends the mission, and whenever the
VLM is asked again, and at the end, every call of every batch has its entry. -/
theorem mission_audited {maxSteps : Int} {text : String} {path : List _} {p : Code Unit}
    {s : Ledger}
    (run : Transition.Run (Turn Ledger.performs) (mission maxSteps text, {}) path (p, s)) :
    Audit p s := by
  have kept := Program.Holds.along run (mission_keeps maxSteps text)
  cases p with
  | done a =>
    have settled : Settled s := kept.returned a rfl
    exact ⟨settled.rounds, settled.counted, by simp [nextOp], fun _ => settled.complete⟩
  | raise e => exact e.elim
  | step op next =>
    have sound := kept.now_good
    refine ⟨sound.rounds, sound.counted, fun tc same => ?_, ?_⟩
    · exact sound.notOver tc (Option.some.inj same)
    · rintro (⟨ctx, same⟩ | none)
      · exact sound.complete ctx (Option.some.inj same)
      · cases none

/-- The same ledger, run from a script of answers. -/
def Ledger.allows (s : Ledger) : (op : Op) → op.Answer → Bool
  | .mission, m => m = s.mission
  | .dispatchToolCall _, result =>
    if result.ok then result.error = .null
    else
      match result.error with
      | .string text => text ≠ ""
      | _ => false
  | _, _ => true

def Ledger.perform? (op : Op) (s : Ledger) (r : op.Answer) : Option Ledger :=
  if s.allows op r then some (s.after op r) else none

theorem perform?_sound {op : Op} {s : Ledger} {r : op.Answer} {s' : Ledger}
    (done : Ledger.perform? op s r = some s') : Ledger.performs op s r s' := by
  unfold Ledger.perform? at done
  split at done
  · next allowed =>
    refine ⟨?_, (Option.some.inj done).symm⟩
    cases op with
    | mission =>
      change r = s.mission
      simpa [Ledger.allows] using allowed
    | dispatchToolCall tc =>
      unfold Ledger.allows at allowed
      refine ⟨fun accepted => ?_, fun refused => ?_⟩
      · simpa [accepted] using allowed
      · cases error : r.error with
        | string text => exact ⟨text, by simpa [refused, error] using allowed, rfl⟩
        | _ => simp [refused, error] at allowed
    | _ => trivial
  · cases done

/-- A batch whose second call fails, after which the process is stopped. -/
def failingBatch : List (Event Op.Answer) :=
  let health : ToolCall := { requestId := "1", name := "get_health" }
  let goto : ToolCall := { requestId := "2", name := "goto_ned" }
  let hold : ToolCall := { requestId := "3", name := "hold" }
  let well : ToolResult := { requestId := .string "1", ok := true }
  let busy : ToolResult := { requestId := .string "2", ok := false, error := .string "busy" }
  let before : OrchestratorMission := { goalText := "go" }
  let flown := (before.record (executedStep health well) true).record (executedStep goto busy) true
  let after := flown.record (skippedStep "skipped:prior_failure" hold) false
  [⟨.newMission "go", ()⟩, ⟨.stopIsSet, false⟩, ⟨.preemptIsSet, false⟩, ⟨.queueEmpty, true⟩,
    ⟨.mission, before⟩, ⟨.publishStatus "thinking", ()⟩,
    ⟨.vlmSubmit { userCommand := "go", mission := before }, ()⟩, ⟨.vlmWait, ()⟩,
    ⟨.preemptIsSet, false⟩, ⟨.stopIsSet, false⟩,
    ⟨.vlmResult, .ok { thought := "", toolCalls := [health, goto, hold] }⟩,
    ⟨.publishStatus "executing", ()⟩, ⟨.stopIsSet, false⟩, ⟨.preemptIsSet, false⟩,
    ⟨.dispatchToolCall health, well⟩, ⟨.record (executedStep health well) true, ()⟩,
    ⟨.stopIsSet, false⟩, ⟨.preemptIsSet, false⟩, ⟨.dispatchToolCall goto, busy⟩,
    ⟨.record (executedStep goto busy) true, ()⟩, ⟨.mission, flown⟩,
    ⟨.record (skippedStep "skipped:prior_failure" hold) false, ()⟩, ⟨.stopIsSet, true⟩,
    ⟨.stopIsSet, true⟩, ⟨.mission, after⟩, ⟨.appendHistory (.mission "go" 1 2 .stopped), ()⟩,
    ⟨.publishStatus "idle", ()⟩]

theorem run_of_script {c d : Code Unit × Ledger} {path : List _} {script : List (Event Op.Answer)}
    (replayed : Transition.replay (turn? Ledger.perform?) c script = some (path, d)) :
    Transition.Run (Turn Ledger.performs) c path d :=
  Transition.Run.of_replay (fun taken => turn?_sound perform?_sound taken) replayed

theorem failingBatch_replays : ∃ path p s,
    Transition.replay (turn? Ledger.perform?) (mission 10 "go", {}) failingBatch =
      some (path, p, s) ∧
    nextOp p = none ∧ s.mission.stepHistory.length = 3 ∧ s.mission.currentStep = 2 :=
  ⟨_, _, _, rfl, rfl, rfl, rfl⟩

theorem mission_audited_failing : ∃ path p s,
    Transition.replay (turn? Ledger.perform?) (mission 10 "go", {}) failingBatch =
      some (path, p, s) ∧
    nextOp p = none ∧ s.mission.stepHistory.length = 3 ∧ s.mission.currentStep = 2 ∧
      Audit p s := by
  obtain ⟨path, p, s, replayed, ended, entries, counted⟩ := failingBatch_replays
  exact ⟨path, p, s, replayed, ended, entries, counted, mission_audited (run_of_script replayed)⟩

end Lexaire.Orchestrator
