import Lexaire.Orchestrator.Process

/-! What the code of a command does before each of its tool calls. A call other
than `abort` is made right after the event was found clear, after a decision that
this command asked for, and after a test of the queue; the code of an abort makes
no other call. -/
namespace Lexaire.Orchestrator
open Atomic Op

/-- A call of a tool that is not `abort`. -/
def Op.nonAbort : Op → Bool
  | .dispatchToolCall tc => tc.name ≠ "abort"
  | _ => false

def Op.abortCall : Op → Bool
  | .dispatchToolCall tc => tc.name = "abort"
  | _ => false

def Op.submits : Op → Bool
  | .vlmSubmit _ => true
  | _ => false

/-- The event was found clear. -/
def Op.clears : (op : Op) → op.Answer → Bool
  | .preemptIsSet, set => !set
  | _, _ => false

/-- The queue was found empty. -/
def Op.passes : (op : Op) → op.Answer → Bool
  | .queueEmpty, empty => empty
  | _, _ => false

abbrev Silent {α : Type} (p : Code α) : Prop := p.All (·.nonAbort = false)

/-- A call comes right after the event was found clear; `cleared` says so of the
first operation. -/
def Guarded {α : Type} : Bool → Code α → Prop
  | _, .done _ | _, .raise _ => True
  | cleared, .step op next =>
    (op.nonAbort = true → cleared = true) ∧ ∀ r, Guarded (op.clears r) (next r)

/-- Every way to the end makes the `abort` call. -/
def Reaches {α : Type} : Code α → Prop
  | .done _ | .raise _ => False
  | .step op next => op.abortCall = true ∨ ∀ r, Reaches (next r)

/-- A call comes after an answer that opens the way, and from then on guarded. -/
inductive Until {α : Type} (opens : (op : Op) → op.Answer → Bool) : Code α → Prop where
  | silent {p : Code α} (silent : Silent p) : Until opens p
  | step {op : Op} {next : op.Answer → Code α} (quiet : op.nonAbort = false)
      (rest : ∀ r, opens op r = false → Until opens (next r))
      (opened : ∀ r, opens op r = true → Underway (next r) ∧ Guarded false (next r)) :
      Until opens (.step op next)

/-- After the loop-top test. -/
abbrev Tests {α : Type} (p : Code α) : Prop := Until Op.passes p

/-- After a decision was asked for. -/
abbrev Asks {α : Type} (p : Code α) : Prop := Until (fun op _ => op.submits) p

section Rules
variable {α β : Type} {p : Code α}

theorem Guarded.of_false {cleared : Bool} (guarded : Guarded false p) : Guarded cleared p := by
  cases p with
  | done a => trivial
  | raise e => trivial
  | step op next => exact ⟨fun call => absurd (guarded.1 call) Bool.false_ne_true, guarded.2⟩

theorem Guarded.of_silent {cleared : Bool} (silent : Silent p) : Guarded cleared p := by
  induction p generalizing cleared with
  | done a => trivial
  | raise e => trivial
  | step op next ih =>
    refine ⟨fun call => ?_, fun r => ih r (silent.2 r)⟩
    rw [silent.1] at call
    cases call

theorem Guarded.bind {cleared : Bool} {f : α → Code β} (first : Guarded cleared p)
    (rest : ∀ a, Guarded false (f a)) : Guarded cleared (p >>= f) := by
  induction p generalizing cleared with
  | done a => exact (rest a).of_false
  | raise e => trivial
  | step op next ih => exact ⟨first.1, fun r => ih r (first.2 r)⟩

theorem guarded_call {cleared : Bool} {op : Op} {f : op.Answer → Code α}
    (quiet : op.nonAbort = false) (rest : ∀ r, Guarded false (f r)) :
    Guarded cleared (call op >>= f) := by
  refine ⟨fun call => ?_, fun r => (rest r).of_false⟩
  rw [quiet] at call
  cases call

theorem until_call {opens : (op : Op) → op.Answer → Bool} {op : Op} {f : op.Answer → Code α}
    (quiet : op.nonAbort = false) (plain : ∀ r, opens op r = false)
    (rest : ∀ r, Until opens (f r)) : Until opens (call op >>= f) := by
  refine .step quiet (fun r _ => rest r) fun r opened => ?_
  rw [plain r] at opened
  cases opened

theorem Until.quiet {opens : (op : Op) → op.Answer → Bool} {op : Op} {next : op.Answer → Code α}
    (h : Until opens (.step op next)) : op.nonAbort = false := by
  cases h with
  | silent silent => exact silent.1
  | step quiet => exact quiet

/-- What an operation leaves of it. -/
theorem Until.next {opens : (op : Op) → op.Answer → Bool} {op : Op} {next : op.Answer → Code α}
    (h : Until opens (.step op next)) (r : op.Answer) :
    Until opens (next r) ∨ (opens op r = true ∧ Underway (next r) ∧ Guarded false (next r)) := by
  cases h with
  | silent silent => exact .inl (.silent (silent.2 r))
  | step quiet rest opened =>
    cases way : opens op r with
    | false => exact .inl (rest r way)
    | true => exact .inr ⟨rfl, opened r way⟩

theorem silent_call {op : Op} {f : op.Answer → Code α} (quiet : op.nonAbort = false)
    (rest : ∀ r, Silent (f r)) : Silent (call op >>= f) :=
  ⟨quiet, rest⟩

end Rules

/-- What a mission does after its loop. -/
def closing (maxSteps : Int) (text : String) (ended : LoopEnd) : Code Unit := do
  let reason ← endReason maxSteps ended
  let mission ← call .mission
  call (.appendHistory (.mission text ended.decisionCount mission.currentStep reason))
  if reason = .vlmError then call (.publishStatus "vlm_error")
  else if reason = .bridgeOffline then return
  else call (.publishStatus "idle")

theorem closing_silent (maxSteps : Int) (text : String) (ended : LoopEnd) :
    Silent (closing maxSteps text ended) := by
  unfold closing
  refine .bind (endReason_all (by rfl) (by rfl) maxSteps ended) fun reason => ?_
  refine silent_call rfl fun mission => silent_call rfl fun _ => ?_
  split
  · exact ⟨rfl, fun _ => trivial⟩
  · split
    · trivial
    · exact ⟨rfl, fun _ => trivial⟩

theorem dispatchBatch_guarded (batch : List ToolCall) : Guarded false (dispatchBatch batch) := by
  induction batch with
  | nil => trivial
  | cons tc rest ih =>
    have skipped (reason : String) (ended : BatchEnd) (left : List ToolCall) :
        Guarded false (recordSkipped reason left >>= fun _ => pure ended : Code BatchEnd) :=
      .of_silent (.bind (recordSkipped_all (fun _ => by rfl) reason left) fun _ => trivial)
    apply guarded_call rfl
    intro stopped
    cases stopped with
    | true => exact skipped _ _ _
    | false =>
      refine ⟨fun called => (by cases called), fun preempted => ?_⟩
      cases preempted with
      | true => exact skipped _ _ _
      | false =>
        refine ⟨fun _ => rfl, fun result => guarded_call rfl fun _ => ?_⟩
        cases verdict tc result with
        | offline | terminal => exact skipped _ _ _
        | failed =>
          apply guarded_call rfl
          intro mission
          refine .bind (.of_silent (recordSkipped_all (fun _ => by rfl) _ _)) fun _ => ?_
          split <;> trivial
        | next => exact ih

/-- From the loop-top test on. -/
theorem decisionLoop_guarded (text : String) (left decisionCount : Nat) :
    Guarded false (decisionLoop text left decisionCount) := by
  induction left generalizing decisionCount with
  | zero => trivial
  | succ left ih =>
    apply guarded_call rfl
    intro stopped
    cases stopped with
    | true => trivial
    | false =>
      have overtaking : Guarded false overtaken := by
        apply guarded_call rfl
        intro preempted
        cases preempted with
        | true => trivial
        | false => exact guarded_call rfl fun _ => trivial
      refine .bind overtaking fun overtaken => ?_
      cases overtaken with
      | true => trivial
      | false =>
        refine guarded_call rfl fun mission => guarded_call rfl fun _ => ?_
        refine guarded_call rfl fun _ => guarded_call rfl fun _ => guarded_call rfl ?_
        intro preempted
        cases preempted with
        | true => trivial
        | false =>
          apply guarded_call rfl
          intro stopped
          cases stopped with
          | true => trivial
          | false =>
            apply guarded_call rfl
            intro result
            cases result with
            | error what => trivial
            | ok decision =>
              change Guarded false (if decision.toolCalls = [] then _ else _)
              split
              · split <;> trivial
              · apply guarded_call rfl
                intro _
                refine .bind (dispatchBatch_guarded decision.toolCalls) fun ended => ?_
                cases ended with
                | failed | through => exact ih (decisionCount + 1)
                | _ => trivial

theorem mission_eq (maxSteps : Int) (text : String) :
    mission maxSteps text =
      .step (.newMission text) fun _ => decisionLoop text maxSteps.toNat 0 >>= closing maxSteps text :=
  rfl

theorem mission_guarded (maxSteps : Int) (text : String) : Guarded false (mission maxSteps text) := by
  rw [mission_eq]
  refine guarded_call rfl fun _ => .bind (decisionLoop_guarded text maxSteps.toNat 0) fun ended => ?_
  exact .of_silent (closing_silent maxSteps text ended)

/-- A mission calls nothing before its loop-top test, and nothing before it has
asked for a decision. -/
theorem mission_until (maxSteps : Int) (text : String) :
    Tests (mission maxSteps text) ∧ Asks (mission maxSteps text) := by
  have closes (ended : LoopEnd) : Silent (closing maxSteps text ended) :=
    closing_silent maxSteps text ended
  have guarded := mission_guarded maxSteps text
  have underway := mission_underway maxSteps text
  rw [mission_eq] at guarded underway ⊢
  have later := guarded.2 ()
  have going := underway.2 ()
  generalize maxSteps.toNat = left at later going ⊢
  cases left with
  | zero => exact ⟨.silent ⟨rfl, fun _ => closes _⟩, .silent ⟨rfl, fun _ => closes _⟩⟩
  | succ left =>
    -- past the test, in the order of the tree
    have tested := ((later.2 false).2 false).2 true
    have on := ((going.2 false).2 false).2 true
    constructor
    · refine until_call rfl (fun _ => rfl) fun _ => until_call rfl (fun _ => rfl) fun stopped => ?_
      cases stopped with
      | true => exact .silent (closes _)
      | false =>
        apply until_call rfl (fun _ => rfl)
        intro preempted
        cases preempted with
        | true => exact .silent (closes _)
        | false =>
          refine .step rfl ?_ ?_
          · rintro empty found
            obtain rfl : empty = false := found
            exact .silent (closes _)
          · rintro empty found
            obtain rfl : empty = true := found
            exact ⟨on, tested⟩
    · refine until_call rfl (fun _ => rfl) fun _ => until_call rfl (fun _ => rfl) fun stopped => ?_
      cases stopped with
      | true => exact .silent (closes _)
      | false =>
        apply until_call rfl (fun _ => rfl)
        intro preempted
        cases preempted with
        | true => exact .silent (closes _)
        | false =>
          apply until_call rfl (fun _ => rfl)
          intro empty
          cases empty with
          | false => exact .silent (closes _)
          | true =>
            refine until_call rfl (fun _ => rfl) fun mission => until_call rfl (fun _ => rfl) ?_
            intro _
            refine .step rfl ?_ ?_
            · rintro _ ⟨⟩
            · rintro _ _
              exact ⟨((on.2 mission).2 ()).2 (), ((tested.2 mission).2 ()).2 ()⟩

theorem abort_silent (text : String) : Silent (abort text) :=
  abort_all (fun _ => by rfl) (by rfl) (fun _ => by rfl) (by rfl) text fun _ => by rfl

theorem abort_reaches (text : String) : Reaches (abort text) :=
  .inr fun _ => .inr fun _ => .inl rfl

/-- The code of a command that is an abort. -/
theorem onCommand_abort (settings : Settings) {cmd : VoiceCommand}
    (isAbort : settings.isAbort cmd = true) :
    Silent (onCommand settings cmd) ∧ Reaches (onCommand settings cmd) := by
  have silent := abort_silent cmd.text
  have reaches := abort_reaches cmd.text
  unfold onCommand
  simp only [isAbort, if_true]
  constructor
  · exact silent_call rfl fun _ => silent_call rfl fun _ => silent_call rfl fun _ => silent
  · exact .inr fun _ => .inr fun _ => .inr fun _ => reaches

/-- The code of any command, at its start. -/
theorem onCommand_until (settings : Settings) (cmd : VoiceCommand) :
    Tests (onCommand settings cmd) ∧ Asks (onCommand settings cmd) := by
  have rest : Tests (if settings.isAbort cmd then abort cmd.text
      else mission settings.maxSteps cmd.text) ∧
      Asks (if settings.isAbort cmd then abort cmd.text
        else mission settings.maxSteps cmd.text) := by
    split
    · exact ⟨.silent (abort_silent cmd.text), .silent (abort_silent cmd.text)⟩
    · exact mission_until settings.maxSteps cmd.text
  constructor
  · refine until_call rfl (fun _ => rfl) fun _ => until_call rfl (fun _ => rfl) fun _ => ?_
    exact until_call rfl (fun _ => rfl) fun _ => rest.1
  · refine until_call rfl (fun _ => rfl) fun _ => until_call rfl (fun _ => rfl) fun _ => ?_
    exact until_call rfl (fun _ => rfl) fun _ => rest.2

end Lexaire.Orchestrator
