import Lexaire.Core.Alone
import Lexaire.Orchestrator.Script
import Lexaire.Orchestrator.Wire

/-! The end of `run()`. What its expressions can raise is a matter of the JSON values
that reach them: the two headers that a context copies, and whatever is nested too
deep to be written, read, copied or compared. -/
namespace Lexaire.Orchestrator
open Atomic Transition Op

/-- The calls of a decision and the error of a reply are shallow. -/
def Op.Fair (limit : Nat) : (op : Op) → op.Answer → Prop
  | .vlmResult, result =>
    ∀ decision, result = .ok decision → ∀ tc ∈ decision.toolCalls, Json.depthMembers tc.args ≤ limit
  | .dispatchToolCall _, result => result.error.depth ≤ limit
  | _, _ => True

/-- So is what is sent, recorded and noted. -/
def Op.Modest (limit : Nat) : Op → Prop
  | .dispatchToolCall tc => Json.depthMembers tc.args ≤ limit
  | .record step _ => step.depth ≤ limit
  | .appendHistory (.aborted _ result) => result.error.depth ≤ limit
  | _ => True

/-- Fair answers leave every operation to come modest. -/
abbrev Shallow (limit : Nat) {α : Type} (p : Code α) : Prop :=
  p.Holds (.alone fun op (_ : Unit) r (_ : Unit) => op.Fair limit r) (fun op _ => op.Modest limit)
    (fun _ _ => True) ()

section Rules
variable {limit : Nat} {α β : Type}

theorem shallow_done (a : α) : Shallow limit (.done a : Code α) := .alone_done trivial

theorem shallow_step {op : Op} {next : op.Answer → Code α} (modest : op.Modest limit)
    (rest : ∀ r, op.Fair limit r → Shallow limit (next r)) : Shallow limit (.step op next) :=
  .alone_step modest fun r _ fair => rest r fair

theorem shallow_call {op : Op} {f : op.Answer → Code α} (modest : op.Modest limit)
    (rest : ∀ r, Shallow limit (f r)) : Shallow limit (call op >>= f) :=
  shallow_step modest fun r _ => rest r

theorem shallow_bind {p : Code α} {f : α → Code β} (first : Shallow limit p)
    (rest : ∀ a, Shallow limit (f a)) : Shallow limit (p >>= f) :=
  .bind first (fun a _ _ => rest a) fun e => e.elim

theorem shallow_all {p : Code α} (modest : p.All (·.Modest limit)) : Shallow limit p := by
  induction p with
  | done a => exact shallow_done a
  | raise e => exact e.elim
  | step op next ih => exact shallow_step modest.1 fun r _ => ih r (modest.2 r)

end Rules

variable {limit : Nat}

theorem skipped_modest {reason : String} {skipped : List ToolCall}
    (shallow : ∀ tc ∈ skipped, Json.depthMembers tc.args ≤ limit) :
    (recordSkipped reason skipped).All (·.Modest limit) := by
  induction skipped with
  | nil => trivial
  | cons tc rest ih =>
    obtain ⟨here, later⟩ := List.forall_mem_cons.mp shallow
    refine ⟨?_, fun _ => ih later⟩
    change max (Json.depthMembers tc.args) 0 ≤ limit
    omega

theorem dispatchBatch_shallow {batch : List ToolCall}
    (shallow : ∀ tc ∈ batch, Json.depthMembers tc.args ≤ limit) :
    Shallow limit (dispatchBatch batch) := by
  induction batch with
  | nil => exact shallow_done _
  | cons tc rest ih =>
    obtain ⟨here, later⟩ := List.forall_mem_cons.mp shallow
    have skipped {left : List ToolCall} (among : ∀ tc ∈ left, Json.depthMembers tc.args ≤ limit)
        (reason : String) (ended : BatchEnd) :
        Shallow limit (recordSkipped reason left >>= fun _ => pure ended : Code BatchEnd) :=
      shallow_bind (shallow_all (skipped_modest among)) fun _ => shallow_done ended
    apply shallow_bind (shallow_all (interrupted_all trivial trivial))
    intro cut
    cases cut with
    | true => exact skipped shallow _ _
    | false =>
      refine shallow_step here fun result fair => ?_
      have recorded : (executedStep tc result).depth ≤ limit := Nat.max_le.mpr ⟨here, fair⟩
      refine shallow_call recorded fun _ => ?_
      cases verdict tc result with
      | offline | terminal => exact skipped later _ _
      | failed =>
        refine shallow_call trivial fun mission => ?_
        apply shallow_bind (shallow_all (skipped_modest later))
        intro _
        split
        · exact shallow_done _
        · exact shallow_done _
      | next => exact ih later

theorem decisionLoop_shallow (text : String) (left decisionCount : Nat) :
    Shallow limit (decisionLoop text left decisionCount) := by
  induction left generalizing decisionCount with
  | zero => exact shallow_done _
  | succ left ih =>
    refine shallow_call trivial fun stopped => ?_
    cases stopped with
    | true => exact shallow_done _
    | false =>
      apply shallow_bind (shallow_all (overtaken_all trivial trivial))
      intro overtaken
      cases overtaken with
      | true => exact shallow_done _
      | false =>
        refine shallow_call trivial fun mission => shallow_call trivial fun _ => ?_
        refine shallow_call trivial fun _ => shallow_call trivial fun _ => shallow_call trivial ?_
        intro preempted
        cases preempted with
        | true => exact shallow_done _
        | false =>
          refine shallow_call trivial fun stopped => ?_
          cases stopped with
          | true => exact shallow_done _
          | false =>
            refine shallow_step trivial fun result fair => ?_
            cases result with
            | error what => exact shallow_done _
            | ok decision =>
              change Shallow limit (if decision.toolCalls = [] then _ else _)
              split
              · split
                · exact shallow_done _
                · exact shallow_done _
              · refine shallow_call trivial fun _ => ?_
                apply shallow_bind (dispatchBatch_shallow (fair decision rfl))
                intro ended
                cases ended with
                | failed | through => exact ih (decisionCount + 1)
                | _ => exact shallow_done _

theorem mission_shallow (maxSteps : Int) (text : String) : Shallow limit (mission maxSteps text) := by
  refine shallow_call trivial fun _ => ?_
  apply shallow_bind (decisionLoop_shallow text maxSteps.toNat 0)
  intro ended
  apply shallow_all
  refine .bind (endReason_all trivial trivial maxSteps ended) fun reason => ?_
  refine ⟨trivial, fun mission => ⟨trivial, fun _ => ?_⟩⟩
  split
  · exact ⟨trivial, fun _ => trivial⟩
  · split
    · trivial
    · exact ⟨trivial, fun _ => trivial⟩

theorem abort_shallow (text : String) : Shallow limit (abort text) := by
  refine shallow_call trivial fun _ => shallow_call trivial fun requestId => ?_
  refine shallow_step (Nat.zero_le limit) fun result fair => ?_
  have noted : Shallow limit (call (.appendHistory (.aborted text result))) :=
    shallow_step fair fun _ _ => shallow_done ()
  change Shallow limit (if _ then _ else _)
  split
  · refine shallow_call trivial fun offline => ?_
    cases offline with
    | false => exact shallow_call trivial fun _ => noted
    | true => exact shallow_call trivial fun _ => noted
  · exact noted

theorem onCommand_shallow (settings : Settings) (cmd : VoiceCommand) :
    Shallow limit (onCommand settings cmd) := by
  refine shallow_call trivial fun _ => shallow_call trivial fun _ => shallow_call trivial fun _ => ?_
  split
  · exact abort_shallow cmd.text
  · exact mission_shallow settings.maxSteps cmd.text

/-! ## Runs -/

/-- What the process is given at a step: both headers of a context are values that
`dict()` takes, and no reply and no call of a decision is nested too deep. -/
def Tame (limit : Nat) (p : Process × ProcessLabel) : Prop :=
  match p.2 with
  | .performs op r => op.Fair limit r
  | .raises _ (.reply depth) => depth ≤ limit
  | .raises (.vlmSubmit _) _ => dictError p.1.scene = none ∧ dictError p.1.telemetry = none
  | _ => True

def MainThread.Alive (limit : Nat) (stop : Bool) : MainThread → Prop
  | .waiting => True
  | .working _ rest => Shallow limit rest
  | .raised _ => False
  | .returned => stop = true

structure Healthy (limit : Nat) (s : Process) : Prop where
  mission : s.mission.depth ≤ limit
  main : s.main.Alive limit s.stop

theorem OrchestratorMission.depth_record {m : OrchestratorMission} {step : Step} {executed : Bool}
    (shallow : m.depth ≤ limit) (here : step.depth ≤ limit) :
    (m.record step executed).depth ≤ limit := by
  unfold OrchestratorMission.depth at shallow ⊢
  simp only [OrchestratorMission.record, List.map_append]
  generalize m.stepHistory = history at shallow ⊢
  induction history with
  | nil => simpa using here
  | cons first rest ih =>
    simp only [List.map_cons, List.cons_append, List.foldr_cons] at shallow ⊢
    obtain ⟨head, tail⟩ := Nat.max_le.mp shallow
    exact Nat.max_le.mpr ⟨head, ih tail⟩

/-- Operations write nothing of the mission but what they record. -/
theorem performs_depth {op : Op} {s s' : Process} {r : op.Answer} (modest : op.Modest limit)
    (shallow : s.mission.depth ≤ limit) (effect : Process.performs op s r s') :
    s'.mission.depth ≤ limit := by
  cases op with
  | newMission goal =>
    obtain rfl := effect
    exact Nat.zero_le limit
  | record step executed =>
    obtain rfl := effect
    exact OrchestratorMission.depth_record shallow modest
  | stopIsSet | preemptIsSet | queueEmpty | mission =>
    obtain ⟨-, rfl⟩ := effect
    exact shallow
  | vlmSubmit ctx =>
    obtain ⟨-, -, rfl⟩ := effect
    exact shallow
  | _ =>
    obtain rfl := effect
    exact shallow

theorem Healthy.not_raises {s : Process} {op : Op} {next : op.Answer → Code Unit} {fault : Fault}
    {e : PyError} (healthy : Healthy limit s) (shallow : Shallow limit (.step op next))
    (tame : Tame limit (s, .raises op fault)) : ¬ s.Raises limit op fault e := by
  have modest : op.Modest limit := shallow.now_good
  intro raised
  cases raised with
  | scene bad => simp [tame.1] at bad
  | telemetry good bad => simp [tame.2] at bad
  | history deep => exact absurd healthy.mission (Nat.not_le_of_lt deep)
  | args deep => exact absurd modest (Nat.not_le_of_lt deep)
  | reply deep => exact absurd tame (Nat.not_le_of_lt deep)
  | compared deep => exact absurd (Nat.max_le.mp modest).2 (Nat.not_le_of_lt deep)
  | noted deep => exact absurd modest (Nat.not_le_of_lt deep)

theorem Healthy.next {settings : Settings} {py : Interpreter} {s s' : Process} {e : ProcessLabel}
    (healthy : Healthy py.limit s) (tame : Tame py.limit (s, e))
    (moved : Process.Next settings py s e s') : Healthy py.limit s' := by
  have main := healthy.main
  cases moved with
  | stops =>
    refine ⟨healthy.mission, ?_⟩
    cases at_main : s.main with
    | raised e => simp [at_main, MainThread.Alive] at main
    | working command rest => simpa [at_main, MainThread.Alive] using main
    | _ => trivial
  | takes waiting running head => exact ⟨healthy.mission, onCommand_shallow settings _⟩
  | performs at_op effect =>
    rw [at_op] at main
    have shallow : Shallow py.limit (.step _ _) := main
    have mission := performs_depth shallow.now_good healthy.mission effect
    exact ⟨mission, shallow.performed tame⟩
  | raises at_op raised =>
    rw [at_op] at main
    exact absurd raised (healthy.not_raises main tame)
  | finishes => exact ⟨healthy.mission, trivial⟩
  | returns waiting stopped => exact ⟨healthy.mission, stopped⟩
  | _ => exact ⟨healthy.mission, main⟩

/-- Where every context is built from headers that `dict()` takes, and no reply and no
call is nested too deep, `run()` ends only by returning once it has been stopped. -/
theorem run_survives {settings : Settings} {py : Interpreter} {path : History} {s : Process}
    (run : Run (Process.Next settings py) {} path s) (tame : ∀ p ∈ path, Tame py.limit p) :
    (∀ e, s.main ≠ .raised e) ∧ (s.main = .returned → s.stop = true) := by
  have start : Healthy py.limit {} := ⟨Nat.zero_le _, trivial⟩
  obtain ⟨healthy, -⟩ := run.invariant (I := Healthy py.limit)
    (fun s e => Tame py.limit (s, e)) (fun _ _ => True)
    (fun healthy tame moved => healthy.next tame moved) (fun _ _ _ => trivial) start tame
  have main := healthy.main
  constructor
  · intro e ended
    rw [ended] at main
    exact main
  · intro ended
    rw [ended] at main
    exact main

/-- A mission up to the context of its first decision. -/
def askLabels : List ProcessLabel :=
  offerLabels "fly" ++ [.takes] ++ beginLabels false ++ [.performs (.newMission "fly") (),
    .performs .stopIsSet false, .performs .preemptIsSet false, .performs .queueEmpty true,
    .performs .mission { goalText := "fly" }, .performs (.publishStatus "thinking") ()]

def flyContext : VlmContext := { userCommand := "fly", mission := { goalText := "fly" } }

/-- A bridge's reply to an accepted call, as the call returns it. -/
def acceptedResult (tc : ToolCall) : ToolResult :=
  ToolResult.ofReply tc (.object [("request_id", .string tc.requestId), ("ok", .boolean true),
    ("error", .string ""), ("data", .object [("mode", .array [.integer 4])])])

/-- The VLM takes off and lands, the bridge accepts both, and the process is stopped. -/
def flightLabels : List ProcessLabel :=
  let takeoff : ToolCall := { requestId := "1", name := "takeoff", args := [("altitude_m", .integer 2)] }
  let land : ToolCall := { requestId := "2", name := "land" }
  let up := executedStep takeoff (acceptedResult takeoff)
  let down := executedStep land (acceptedResult land)
  let flown := (OrchestratorMission.record { goalText := "fly" } up true).record down true
  [.hearsScene (.ok (.object [("objects", .array [])]))] ++ askLabels ++
  [.performs (.vlmSubmit flyContext) (), .performs .vlmWait (), .performs .preemptIsSet false,
    .performs .stopIsSet false,
    .performs .vlmResult (.ok { thought := "up and down", toolCalls := [takeoff, land] }),
    .performs (.publishStatus "executing") ()] ++
  callLabels takeoff (acceptedResult takeoff) ++ callLabels land (acceptedResult land) ++
  [.performs .stopIsSet false, .performs .mission flown,
    .performs (.appendHistory (.mission "fly" 1 flown.currentStep (.terminal "land"))) (),
    .performs (.publishStatus "idle") (), .finishes, .stops, .returns]

/-- The last scene header was `null`. -/
def nullSceneLabels : List ProcessLabel :=
  [.hearsScene (.ok .null)] ++ askLabels ++ [.raises (.vlmSubmit flyContext) .scene]

/-- `Tame`, of a step that does not raise. -/
def tame? (limit : Nat) : Process × ProcessLabel → Bool
  | (_, .performs .vlmResult (.ok decision)) =>
    decision.toolCalls.all fun tc => Json.depthMembers tc.args ≤ limit
  | (_, .performs (.dispatchToolCall _) result) => result.error.depth ≤ limit
  | (_, .raises _ _) => false
  | _ => true

theorem tame_of_check {p : Process × ProcessLabel} (checked : tame? limit p = true) :
    Tame limit p := by
  obtain ⟨s, e⟩ := p
  cases e with
  | performs op r =>
    cases op with
    | vlmResult =>
      rintro decision rfl tc member
      exact of_decide_eq_true (List.all_eq_true.mp checked tc member)
    | dispatchToolCall tc =>
      have shallow : Json.depth (ToolResult.error r) ≤ limit := of_decide_eq_true checked
      exact shallow
    | _ => trivial
  | raises op fault => cases checked
  | _ => trivial

theorem run_survives_flight : ∃ path s, Run (Process.Next asciiSettings plainPython) {} path s ∧
    s.main = .returned ∧ (∀ p ∈ path, Tame plainPython.limit p) ∧
      (∀ e, s.main ≠ .raised e) ∧ (s.main = .returned → s.stop = true) := by
  have checked : (replay (Process.step? asciiSettings plainPython) {} flightLabels).any
      (fun ran => ran.1.all (tame? plainPython.limit) && ran.2.main matches .returned) = true := by
    decide +kernel
  obtain ⟨⟨path, s⟩, ran, checked⟩ := (Option.any_eq_true _ _).mp checked
  obtain ⟨quiet, returned⟩ := Bool.and_eq_true_iff.mp checked
  have tame (p : Process × ProcessLabel) (member : p ∈ path) : Tame plainPython.limit p :=
    tame_of_check (List.all_eq_true.mp quiet p member)
  have run := Run.of_replay Process.step?_sound ran
  have ended : s.main = .returned := by
    split at returned
    · assumption
    · cases returned
  exact ⟨path, s, run, ended, tame, run_survives run tame⟩

/-- A scene frame that holds `null` ends the loop at the next command. -/
theorem null_scene_raises : ¬ ∀ (settings : Settings) (py : Interpreter) (path : History)
    (s : Process), Run (Process.Next settings py) {} path s → ∀ e, s.main ≠ .raised e := by
  intro claimed
  have checked : (replay (Process.step? asciiSettings plainPython) {} nullSceneLabels).any
      (fun ran => ran.2.main matches .raised .typeError) = true := by
    decide +kernel
  obtain ⟨⟨path, s⟩, ran, raised⟩ := (Option.any_eq_true _ _).mp checked
  refine claimed _ _ path s (.of_replay Process.step?_sound ran) .typeError ?_
  split at raised
  · assumption
  · cases raised

end Lexaire.Orchestrator
