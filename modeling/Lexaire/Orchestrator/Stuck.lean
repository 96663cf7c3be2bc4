import Mathlib.Data.List.DropRight
import Lexaire.Orchestrator.Boundary

/-! The stuck detector. It looks at the trailing entries of the step history, among
which are those of skipped calls; beside the history the state keeps the calls that
were dispatched, and whether a repeated failure was out of the detector's sight. -/
namespace Lexaire.Orchestrator
open Atomic Transition Text Lexaire.Bridge Op

/-- The earlier steps that the window holds beside the latest one. -/
def earlier : Nat := stuckFailureWindow - 1

def matchesStep (tc : ToolCall) (result : ToolResult) (step : Step) : Bool :=
  step.tool == tc.name && step.error == result.error

/-- A failed call of the same tool with the same error. -/
def sameFailure (tc : ToolCall) (result : ToolResult) (call : ToolCall × ToolResult) : Bool :=
  verdict call.1 call.2 = .failed && call.1.name == tc.name && call.2.error == result.error

/-- A failed call that repeats one of the last dispatched. -/
def repeats (calls : List (ToolCall × ToolResult)) (tc : ToolCall) (result : ToolResult) : Bool :=
  verdict tc result = .failed && (calls.rtake earlier).any (sameFailure tc result)

/-- What the detector sees before the call is recorded. -/
def inSight (history : List Step) (tc : ToolCall) (result : ToolResult) : Bool :=
  (history.rtake earlier).any (matchesStep tc result)

theorem repeatedFailures_record (history : List Step) (tc : ToolCall) (result : ToolResult) :
    stuckFailureThreshold ≤ repeatedFailures (history ++ [executedStep tc result]) tc result ↔
      inSight history tc result = true := by
  have window : (history ++ [executedStep tc result]).drop
      ((history ++ [executedStep tc result]).length - stuckFailureWindow) =
      history.rtake earlier ++ [executedStep tc result] :=
    List.rtake_concat_succ history earlier (executedStep tc result)
  have latest : matchesStep tc result (executedStep tc result) = true := by
    simp [matchesStep, executedStep]
  unfold repeatedFailures
  rw [window, List.countP_append, List.countP_singleton]
  change 2 ≤ List.countP (matchesStep tc result) _ + (if matchesStep tc result _ = true then 1 else 0) ↔ _
  rw [latest, if_pos rfl, inSight, List.any_eq_true]
  rw [← List.countP_pos_iff]
  omega

/-- The history holds an entry for each dispatched call, and others for skipped ones. -/
inductive Interleaved : List Step → List (ToolCall × ToolResult) → Prop where
  | nil : Interleaved [] []
  | executed {history : List Step} {calls : List (ToolCall × ToolResult)} {tc : ToolCall}
      {result : ToolResult} : Interleaved history calls → Telling result →
      Interleaved (history ++ [executedStep tc result]) (calls ++ [(tc, result)])
  | skipped {history : List Step} {calls : List (ToolCall × ToolResult)} {tc : ToolCall}
      {reason : String} : Interleaved history calls → tells reason = false →
      Interleaved (history ++ [skippedStep reason tc]) calls

theorem rtake_mono {α : Type} {l : List α} {k n : Nat} (fewer : k ≤ n) {x : α}
    (member : x ∈ l.rtake k) : x ∈ l.rtake n :=
  List.drop_subset_drop_left l (Nat.sub_le_sub_left fewer l.length) member

theorem Interleaved.recent {history : List Step} {calls : List (ToolCall × ToolResult)}
    (interleaved : Interleaved history calls) {k : Nat} {step : Step}
    (member : step ∈ history.rtake k) :
    (∃ call ∈ calls.rtake k, Telling call.2 ∧ step = executedStep call.1 call.2) ∨
      ∃ reason tc, tells reason = false ∧ step = skippedStep reason tc := by
  induction interleaved generalizing k with
  | nil => simp at member
  | @executed history calls tc result _ telling ih =>
    cases k with
    | zero => simp at member
    | succ k =>
      rw [List.rtake_concat_succ] at member ⊢
      rcases List.mem_append.mp member with before | last
      · exact (ih before).imp_left fun ⟨call, recent, facts⟩ =>
          ⟨call, List.mem_append_left _ recent, facts⟩
      · obtain rfl := List.mem_singleton.mp last
        exact .inl ⟨(tc, result), by simp, telling, rfl⟩
  | @skipped history calls tc reason _ own ih =>
    cases k with
    | zero => simp at member
    | succ k =>
      rw [List.rtake_concat_succ] at member
      rcases List.mem_append.mp member with before | last
      · exact (ih before).imp_left fun ⟨call, recent, facts⟩ =>
          ⟨call, rtake_mono (Nat.le_succ k) recent, facts⟩
      · obtain rfl := List.mem_singleton.mp last
        exact .inr ⟨reason, tc, own, rfl⟩

theorem verdict_failed {tc : ToolCall} {result : ToolResult} :
    verdict tc result = .failed ↔
      transportFailure result.error = false ∧ result.ok = false ∧ result.error ≠ .null := by
  unfold verdict
  split
  · next lost => simp [lost]
  · next there =>
    split
    · next failed => simp_all
    · next fine => split <;> simp_all

/-- What the detector sees is a failure of a dispatched call. -/
theorem repeats_of_inSight {history : List Step} {calls : List (ToolCall × ToolResult)}
    (interleaved : Interleaved history calls) {tc : ToolCall} {result : ToolResult}
    (telling : Telling result) (failed : verdict tc result = .failed)
    (seen : inSight history tc result = true) : repeats calls tc result = true := by
  obtain ⟨step, recent, same⟩ := List.any_eq_true.mp seen
  simp only [matchesStep, Bool.and_eq_true, beq_iff_eq] at same
  obtain ⟨tool, error⟩ := same
  obtain ⟨there, refused, some_error⟩ := verdict_failed.mp failed
  obtain ⟨text, -, said⟩ := telling.1.2 refused
  rcases interleaved.recent recent with ⟨call, among, telling', rfl⟩ | ⟨reason, skipped, own, rfl⟩
  · have error : call.2.error = result.error := error
    have refused' : call.2.ok = false := by
      cases accepted : call.2.ok with
      | false => rfl
      | true => exact absurd (error.symm.trans (telling'.1.1 accepted)) some_error
    have failed' : verdict call.1 call.2 = .failed := by
      rw [verdict_failed, error]
      exact ⟨there, refused', some_error⟩
    have tool : call.1.name = tc.name := tool
    simp only [repeats, failed, decide_true, Bool.true_and, List.any_eq_true]
    exact ⟨call, among, by simp [sameFailure, failed', tool, error]⟩
  · have same : reason = text := Json.string.inj (error.trans said)
    have tells : tells text = true := telling.2 text said
    rw [← same, own] at tells
    cases tells

/-! ## Runs -/

structure Trail where
  mission : OrchestratorMission := { goalText := "" }
  calls : List (ToolCall × ToolResult) := []
  hidden : Bool := false

/-- A repeated failure that skipped calls have pushed out of the detector's sight. -/
def hides (s : Trail) (tc : ToolCall) (result : ToolResult) : Bool :=
  repeats s.calls tc result && !inSight s.mission.stepHistory tc result

/-- Every dispatch is an exchange with the bridge; signals and decisions come as they like. -/
def Trail.performs (env : SafetyEnvelope) (ctx : FlightCtx) :
    (op : Op) → Trail → op.Answer → Trail → Prop
  | .newMission goal, s, _, s' => s' = { s with mission := { goalText := goal } }
  | .mission, s, m, s' => m = s.mission ∧ s' = s
  | .record step executed, s, _, s' => s' = { s with mission := s.mission.record step executed }
  | .dispatchToolCall tc, s, result, s' => (∃ x : Exchange env ctx tc, x.Returns result) ∧
    s' = { s with
      calls := s.calls ++ [(tc, result)]
      hidden := s.hidden || hides s tc result }
  | _, s, _, s' => s' = s

/-- The latest call failed, and repeats a failure of one of the three before it. -/
def Stuck (calls : List (ToolCall × ToolResult)) : Prop :=
  ∃ before tc result, calls = before ++ [(tc, result)] ∧ repeats before tc result = true

/-- Operations with which a mission goes on. -/
def Op.goesOn : Op → Bool
  | .vlmSubmit _ | .dispatchToolCall _ => true
  | _ => false

def Detected : Op → Trail → Prop
  | .vlmSubmit _, s | .dispatchToolCall _, s => Stuck s.calls → s.hidden = true
  | .appendHistory (.mission _ _ _ .stuckOnRepeatedFailure), s => Stuck s.calls
  | _, _ => True

abbrev Watches (env : SafetyEnvelope) (ctx : FlightCtx) {α : Type} (post : α → Trail → Prop)
    (p : Code α) (s : Trail) : Prop :=
  p.Holds (.alone (Trail.performs env ctx)) Detected (fun result s => ∀ a, result = .ok a → post a s) s

/-- Operations that change nothing here, and after which nothing is asked. -/
def Op.idle : Op → Bool
  | .newMission _ | .mission | .record _ _ | .dispatchToolCall _ | .vlmSubmit _
  | .appendHistory _ => false
  | _ => true

section Watches
variable {env : SafetyEnvelope} {ctx : FlightCtx} {α β : Type} {post : α → Trail → Prop} {s : Trail}

theorem watches_done {a : α} (h : post a s) : Watches env ctx post (.done a) s :=
  .alone_done fun _ same => Except.ok.inj same ▸ h

theorem watches_bind {mid : β → Trail → Prop} {p : Code β} {f : β → Code α}
    (first : Watches env ctx mid p s)
    (rest : ∀ b s, mid b s → Watches env ctx post (f b) s) :
    Watches env ctx post (p >>= f) s :=
  .bind first (fun b s h => rest b s (h b rfl)) fun e => e.elim

theorem watches_idle {op : Op} {f : op.Answer → Code α} (idle : op.idle = true)
    (rest : ∀ r, Watches env ctx post (f r) s) : Watches env ctx post (call op >>= f) s := by
  refine .alone_step ?_ fun r s' effect => ?_
  · cases op <;> trivial
  · obtain rfl : s' = s := by cases op <;> first | exact effect | cases idle
    exact rest r

theorem watches_mission {f : OrchestratorMission → Code α}
    (rest : Watches env ctx post (f s.mission) s) : Watches env ctx post (call .mission >>= f) s := by
  refine .alone_step trivial ?_
  rintro m s' ⟨rfl, rfl⟩
  exact rest

end Watches

variable {env : SafetyEnvelope} {ctx : FlightCtx}

/-- Skipped calls go into the history and nowhere else. -/
theorem recordSkipped_watches {reason : String} (own : tells reason = false)
    (skipped : List ToolCall) {s : Trail}
    (interleaved : Interleaved s.mission.stepHistory s.calls) :
    Watches env ctx (fun _ s' => Interleaved s'.mission.stepHistory s'.calls ∧
      s'.calls = s.calls ∧ s'.hidden = s.hidden) (recordSkipped reason skipped) s := by
  induction skipped generalizing s with
  | nil => exact watches_done ⟨interleaved, rfl, rfl⟩
  | cons tc rest ih =>
    refine .alone_step trivial ?_
    rintro ⟨⟩ s' rfl
    exact ih (s := { s with mission := s.mission.record (skippedStep reason tc) false })
      (interleaved.skipped own)

/-- Between two batches: a repeated failure has ended the mission, if it was in sight. -/
structure Watched (s : Trail) : Prop where
  interleaved : Interleaved s.mission.stepHistory s.calls
  seen : Stuck s.calls → s.hidden = true

/-- What a batch leaves, by how it ends. -/
def BatchEnd.Detects : BatchEnd → Trail → Prop
  | .stuck, s => Stuck s.calls
  | .failed, s | .through, s => Watched s
  | _, _ => True

theorem stuck_append {calls : List (ToolCall × ToolResult)} {tc : ToolCall} {result : ToolResult} :
    Stuck (calls ++ [(tc, result)]) ↔ repeats calls tc result = true := by
  constructor
  · rintro ⟨before, tc', result', same, repeated⟩
    obtain ⟨rfl, last⟩ := List.append_inj' same rfl
    obtain ⟨rfl, rfl⟩ := Prod.mk.inj (List.singleton_inj.mp last)
    exact repeated
  · exact fun repeated => ⟨calls, tc, result, rfl, repeated⟩

theorem dispatchBatch_watches (batch : List ToolCall) {s : Trail} (watched : Watched s) :
    Watches env ctx BatchEnd.Detects (dispatchBatch batch) s := by
  induction batch generalizing s with
  | nil => exact watches_done watched
  | cons tc rest ih =>
    have skipped {reason : String} (own : tells reason = false) (ended : BatchEnd)
        (left : List ToolCall) {s : Trail} (interleaved : Interleaved s.mission.stepHistory s.calls)
        (detects : ∀ s, ended.Detects s) : Watches env ctx BatchEnd.Detects
          (recordSkipped reason left >>= fun _ => pure ended : Code BatchEnd) s :=
      watches_bind (recordSkipped_watches own left interleaved) fun _ s _ => watches_done (detects s)
    apply watches_idle rfl
    intro stopped
    cases stopped with
    | true => exact skipped (by decide) _ _ watched.interleaved fun _ => trivial
    | false =>
      apply watches_idle rfl
      intro preempted
      cases preempted with
      | true => exact skipped (by decide) _ _ watched.interleaved fun _ => trivial
      | false =>
        refine .alone_step watched.seen ?_
        rintro result s' ⟨⟨x, returns⟩, rfl⟩
        refine .alone_step trivial ?_
        rintro ⟨⟩ s' rfl
        have telling := x.telling returns
        have interleaved : Interleaved (s.mission.stepHistory ++ [executedStep tc result])
            (s.calls ++ [(tc, result)]) := watched.interleaved.executed telling
        cases judged : verdict tc result with
        | offline => exact skipped (by decide) _ _ interleaved fun _ => trivial
        | terminal => exact skipped (by decide) _ _ interleaved fun _ => trivial
        | next =>
          refine ih ⟨interleaved, fun stuck => ?_⟩
          have repeated := stuck_append.mp stuck
          simp [repeats, judged] at repeated
        | failed =>
          apply watches_mission
          apply watches_bind (recordSkipped_watches (by decide) rest interleaved)
          rintro ⟨⟩ s' ⟨interleaved', calls, hidden⟩
          have detected : stuckFailureThreshold ≤ repeatedFailures
              (s.mission.stepHistory ++ [executedStep tc result]) tc result ↔
                inSight s.mission.stepHistory tc result = true :=
            repeatedFailures_record s.mission.stepHistory tc result
          change Watches env ctx _ (if stuckFailureThreshold ≤ repeatedFailures
            (s.mission.stepHistory ++ [executedStep tc result]) tc result then _ else _) _
          cases seen : inSight s.mission.stepHistory tc result with
          | true =>
            rw [if_pos (detected.mpr seen)]
            have repeated := repeats_of_inSight watched.interleaved telling judged seen
            have stuck : Stuck s'.calls := calls ▸ stuck_append.mpr repeated
            exact watches_done stuck
          | false =>
            rw [if_neg fun stuck => by simp [detected.mp stuck] at seen]
            refine watches_done ⟨interleaved', fun stuck => ?_⟩
            rw [calls] at stuck
            rw [hidden]
            simp [hides, stuck_append.mp stuck, seen]

theorem decisionLoop_watches (text : String) (left decisionCount : Nat) {s : Trail}
    (watched : Watched s) :
    Watches env ctx (fun ended s => ended.stuck = true → Stuck s.calls)
      (decisionLoop text left decisionCount) s := by
  induction left generalizing decisionCount s with
  | zero => exact watches_done fun stuck => by cases stuck
  | succ left ih =>
    have ends (ended : LoopEnd) (s : Trail) (other : ended.stuck = false) :
        Watches env ctx (fun ended s => ended.stuck = true → Stuck s.calls) (.done ended) s :=
      watches_done fun stuck => by simp [other] at stuck
    apply watches_idle rfl
    intro stopped
    cases stopped with
    | true => exact ends _ _ rfl
    | false =>
      have overtaking {s : Trail} : Watches env ctx (fun _ s' => s' = s) overtaken s := by
        apply watches_idle rfl
        intro preempted
        cases preempted with
        | true => exact watches_done rfl
        | false => exact watches_idle rfl fun _ => watches_done rfl
      apply watches_bind overtaking
      rintro overtaken s' rfl
      cases overtaken with
      | true => exact ends _ _ rfl
      | false =>
        refine watches_mission (watches_idle rfl fun _ => .alone_step watched.seen ?_)
        rintro ⟨⟩ s' rfl
        refine watches_idle rfl fun _ => watches_idle rfl fun preempted => ?_
        cases preempted with
        | true => exact ends _ _ rfl
        | false =>
          apply watches_idle rfl
          intro stopped
          cases stopped with
          | true => exact ends _ _ rfl
          | false =>
            apply watches_idle rfl
            intro result
            cases result with
            | error what => exact ends _ _ rfl
            | ok decision =>
              change Watches env ctx _ (if decision.toolCalls = [] then _ else _) _
              split
              · split
                · exact ends _ _ rfl
                · exact ends _ _ rfl
              · apply watches_idle rfl
                intro _
                apply watches_bind (dispatchBatch_watches decision.toolCalls watched)
                intro ended s' leaves
                cases ended with
                | failed | through => exact ih (decisionCount + 1) leaves
                | stuck => exact watches_done fun _ => leaves
                | _ => exact ends _ _ rfl

theorem endReason_watches (maxSteps : Int) {ended : LoopEnd} {s : Trail}
    (told : ended.stuck = true → Stuck s.calls) :
    Watches env ctx (fun reason s => reason = .stuckOnRepeatedFailure → Stuck s.calls)
      (endReason maxSteps ended) s := by
  have other (reason : EndReason) (plain : reason ≠ .stuckOnRepeatedFailure) :
      Watches env ctx (fun reason s => reason = .stuckOnRepeatedFailure → Stuck s.calls)
        (.done reason) s :=
    watches_done fun same => absurd same plain
  apply watches_idle rfl
  intro stopped
  cases stopped with
  | true => exact other _ (by simp)
  | false =>
    simp only [Bool.false_eq_true, if_false]
    split
    · exact other _ (by simp)
    · cases ended.terminalCall with
      | some tool => exact other _ (by simp)
      | none =>
        apply watches_idle rfl
        intro offline
        cases offline with
        | true => exact other _ (by simp)
        | false =>
          simp only [Bool.false_eq_true, if_false]
          split
          · exact other _ (by simp)
          · split
            · exact other _ (by simp)
            · split
              · next stuck => exact watches_done fun _ => told stuck
              · exact other _ (by simp)

theorem mission_watches (maxSteps : Int) (text : String) :
    Watches env ctx (fun _ _ => True) (mission maxSteps text) {} := by
  refine .alone_step trivial ?_
  rintro ⟨⟩ s rfl
  have fresh : Watched { mission := { goalText := text } } := by
    refine ⟨.nil, ?_⟩
    rintro ⟨before, tc, result, same, -⟩
    simp at same
  change Watches env ctx _ (decisionLoop text maxSteps.toNat 0 >>= _) _
  apply watches_bind (decisionLoop_watches text maxSteps.toNat 0 fresh)
  intro ended s told
  apply watches_bind (endReason_watches maxSteps told)
  intro reason s told
  refine watches_mission (.alone_step ?_ ?_)
  · cases reason with
    | stuckOnRepeatedFailure => exact told rfl
    | _ => trivial
  · rintro ⟨⟩ s' rfl
    change Watches env ctx (fun _ _ => True) (if _ then _ else _) _
    have publishing (state : String) :
        Watches env ctx (fun _ _ => True) (call (.publishStatus state)) s' :=
      watches_idle rfl fun _ => watches_done trivial
    split
    · exact publishing _
    · split
      · exact watches_done trivial
      · exact publishing _

/-- A step at which no repeated failure is out of the detector's sight. -/
def Visible (p : (Code Unit × Trail) × Event Op.Answer) : Prop :=
  match p.2 with
  | ⟨.dispatchToolCall tc, result⟩ => hides p.1.2 tc result = false
  | _ => True

instance : DecidablePred Visible := fun p =>
  match p with
  | (_, ⟨op, _⟩) => by cases op <;> unfold Visible <;> infer_instance

theorem hidden_of_visible {maxSteps : Int} {text : String} {path : List _} {p : Code Unit}
    {s : Trail}
    (run : Run (Turn (Trail.performs env ctx)) (mission maxSteps text, {}) path (p, s))
    (visible : ∀ q ∈ path, Visible q) : s.hidden = false := by
  have kept {c d : Code Unit × Trail} {e : Event Op.Answer} (never : c.2.hidden = false)
      (visible : Visible (c, e)) (turn : Turn (Trail.performs env ctx) c e d) :
      d.2.hidden = false := by
    cases turn with
    | @perform op next s s' r effect =>
      cases op with
      | dispatchToolCall tc =>
        obtain ⟨-, rfl⟩ := effect
        have seen : hides s tc r = false := visible
        have never : s.hidden = false := never
        simp [never, seen]
      | mission =>
        obtain ⟨-, rfl⟩ := effect
        exact never
      | _ =>
        obtain rfl := effect
        exact never
  exact (run.invariant (I := fun c => c.2.hidden = false) (fun c e => Visible (c, e))
    (fun _ _ => True) kept (fun _ _ _ => trivial) rfl visible).1

/-- A mission ends as stuck only when its latest call repeats a failure of one of the
three calls before it; and where no such failure is out of the detector's sight, it
neither calls a tool nor asks for a decision after such a call. -/
theorem stuck_missions_end {maxSteps : Int} {text : String} {path : List _} {p : Code Unit}
    {s : Trail}
    (run : Run (Turn (Trail.performs env ctx)) (mission maxSteps text, {}) path (p, s)) :
    (∀ said decisions tools next,
      p = .step (.appendHistory (.mission said decisions tools .stuckOnRepeatedFailure)) next →
        Stuck s.calls) ∧
    ((∀ q ∈ path, Visible q) →
      ∀ op next, p = .step op next → op.goesOn = true → ¬ Stuck s.calls) := by
  have watched := Program.Holds.along run (mission_watches maxSteps text)
  constructor
  · rintro said decisions tools next rfl
    exact watched.now_good
  · rintro visible op next rfl goes_on stuck
    have hidden : s.hidden = true := by
      have detected := watched.now_good
      cases op with
      | vlmSubmit asked => exact detected stuck
      | dispatchToolCall tc => exact detected stuck
      | _ => cases goes_on
    rw [hidden_of_visible run visible] at hidden
    cases hidden

/-! ## A call that fails twice -/

def gotoCall : ToolCall := { requestId := "2", name := "goto_ned" }

def holdCall : ToolCall := { requestId := "3", name := "hold" }

def gotoExchange : Exchange {} {} gotoCall where
  line := { received := .ok (reply (.value (request gotoCall [])) (err "2" "missing:n")) }
  parsed := .value (request gotoCall [])
  outside := .nominal
  latches := {}
  carried _ same := ⟨[], (Parsed.value.inj same).symm⟩
  answered _ received := ⟨err "2" "missing:n", rfl, (Except.ok.inj received).symm⟩

def gotoResult : ToolResult := ToolResult.ofReply gotoCall (err "2" "missing:n").toJson

def Trail.perform? : (op : Op) → Trail → op.Answer → Option Trail
  | .newMission goal, s, _ => some { s with mission := { goalText := goal } }
  | .mission, s, m => if m = s.mission then some s else none
  | .record step executed, s, _ => some { s with mission := s.mission.record step executed }
  | .dispatchToolCall tc, s, result =>
    if tc = gotoCall ∧ result = gotoResult then
      some { s with
        calls := s.calls ++ [(tc, result)]
        hidden := s.hidden || hides s tc result }
    else none
  | _, s, _ => some s

theorem Trail.perform?_sound {op : Op} {s s' : Trail} {r : op.Answer}
    (done : Trail.perform? op s r = some s') : Trail.performs {} {} op s r s' := by
  cases op with
  | mission =>
    simp only [perform?, Option.ite_none_right_eq_some, Option.some.injEq] at done
    exact ⟨done.1, done.2.symm⟩
  | dispatchToolCall tc =>
    simp only [perform?, Option.ite_none_right_eq_some, Option.some.injEq] at done
    obtain ⟨⟨rfl, rfl⟩, rfl⟩ := done
    exact ⟨⟨gotoExchange, rfl⟩, rfl⟩
  | _ => exact (Option.some.inj done).symm

/-- From the top of the loop to the context of a decision. -/
def askEvents (mission : OrchestratorMission) : List (Event Op.Answer) :=
  [⟨.stopIsSet, false⟩, ⟨.preemptIsSet, false⟩, ⟨.queueEmpty, true⟩, ⟨.mission, mission⟩,
    ⟨.publishStatus "thinking", ()⟩]

/-- A decision whose first call fails; the others are skipped. -/
def failEvents (mission : OrchestratorMission) (skipped : List ToolCall) :
    List (Event Op.Answer) :=
  [⟨.vlmSubmit { userCommand := "go", mission }, ()⟩, ⟨.vlmWait, ()⟩, ⟨.preemptIsSet, false⟩,
    ⟨.stopIsSet, false⟩, ⟨.vlmResult, .ok { thought := "", toolCalls := gotoCall :: skipped }⟩,
    ⟨.publishStatus "executing", ()⟩, ⟨.stopIsSet, false⟩, ⟨.preemptIsSet, false⟩,
    ⟨.dispatchToolCall gotoCall, gotoResult⟩,
    ⟨.record (executedStep gotoCall gotoResult) true, ()⟩,
    ⟨.mission, mission.record (executedStep gotoCall gotoResult) true⟩] ++
  skipped.map fun tc => ⟨.record (skippedStep "skipped:prior_failure" tc) false, ()⟩

/-- The mission after it. -/
def failed (mission : OrchestratorMission) (skipped : List ToolCall) : OrchestratorMission :=
  skipped.foldl (fun m tc => m.record (skippedStep "skipped:prior_failure" tc) false)
    (mission.record (executedStep gotoCall gotoResult) true)

/-- A call fails, `skipped` are skipped, and the mission goes on. -/
def onceEvents (skipped : List ToolCall) : List (Event Op.Answer) :=
  let fresh : OrchestratorMission := { goalText := "go" }
  ⟨.newMission "go", ()⟩ :: askEvents fresh ++ failEvents fresh skipped ++
    askEvents (failed fresh skipped)

/-- The same call fails again. -/
def twiceEvents (skipped : List ToolCall) : List (Event Op.Answer) :=
  onceEvents skipped ++ failEvents (failed { goalText := "go" } skipped) []

/-- The end of the loop, asked for its reason, up to the mission in the state. -/
def stuckEvents (mission : OrchestratorMission) : List (Event Op.Answer) :=
  [⟨.stopIsSet, false⟩, ⟨.bridgeOffline, false⟩, ⟨.mission, mission⟩]

/-- A mission that ends at the second failure, and its state when the second
decision is asked for. -/
theorem stuck_missions_end_twice :
    (∃ path said decisions tools, ∃ next : Unit → Code Unit, ∃ s,
      Run (Turn (Trail.performs {} {})) (mission 10 "go", {}) path
        (.step (.appendHistory (.mission said decisions tools .stuckOnRepeatedFailure)) next, s) ∧
      Stuck s.calls) ∧
    ∃ path ctx, ∃ next : Unit → Code Unit, ∃ s,
      Run (Turn (Trail.performs {} {})) (mission 10 "go", {}) path
        (.step (.vlmSubmit ctx) next, s) ∧
      (∀ q ∈ path, Visible q) ∧ ¬ Stuck s.calls := by
  constructor
  · have replayed : ∃ path next s,
        replay (turn? Trail.perform?) (mission 10 "go", {})
          (twiceEvents [] ++ stuckEvents (failed (failed { goalText := "go" } []) [])) =
          some (path, .step (.appendHistory (.mission "go" 2 2 .stuckOnRepeatedFailure)) next, s) :=
      ⟨_, _, _, rfl⟩
    obtain ⟨path, next, s, replayed⟩ := replayed
    have run := Run.of_replay (fun taken => turn?_sound Trail.perform?_sound taken) replayed
    exact ⟨path, _, _, _, next, s, run, (stuck_missions_end run).1 _ _ _ _ rfl⟩
  · have replayed : ∃ path ctx next s,
        replay (turn? Trail.perform?) (mission 10 "go", {}) (onceEvents []) =
          some (path, .step (.vlmSubmit ctx) next, s) ∧ ∀ q ∈ path, Visible q :=
      ⟨_, _, _, _, rfl, by decide +kernel⟩
    obtain ⟨path, ctx, next, s, replayed, visible⟩ := replayed
    have run := Run.of_replay (fun taken => turn?_sound Trail.perform?_sound taken) replayed
    exact ⟨path, ctx, next, s, run, visible, (stuck_missions_end run).2 visible _ _ rfl rfl⟩

/-- Three skipped calls hide the first failure, and a third decision is asked for. -/
theorem stuck_mission_goes_on : ¬ ∀ path op, ∀ next : op.Answer → Code Unit, ∀ s,
    Run (Turn (Trail.performs {} {})) (mission 10 "go", {}) path (.step op next, s) →
    op.goesOn = true → ¬ Stuck s.calls := by
  intro claimed
  have replayed : ∃ path ctx next s,
      replay (turn? Trail.perform?) (mission 10 "go", {})
        (twiceEvents [holdCall, holdCall, holdCall] ++
          askEvents (failed (failed { goalText := "go" } [holdCall, holdCall, holdCall]) [])) =
        some (path, .step (.vlmSubmit ctx) next, s) ∧
      s.calls = [(gotoCall, gotoResult), (gotoCall, gotoResult)] :=
    ⟨_, _, _, _, rfl, rfl⟩
  obtain ⟨path, ctx, next, s, replayed, calls⟩ := replayed
  have run := Run.of_replay (fun taken => turn?_sound Trail.perform?_sound taken) replayed
  apply claimed path _ next s run rfl
  exact ⟨[(gotoCall, gotoResult)], gotoCall, gotoResult, calls, by decide +kernel⟩

end Lexaire.Orchestrator
