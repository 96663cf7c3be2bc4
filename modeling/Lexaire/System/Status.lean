import Lexaire.Orchestrator.EndReason
import Lexaire.System.Requests
import Lexaire.System.Script

/-! The status that stands when a command is done. The calls publish the loss of the bridge
themselves, so that what was published last depends on where the command's code and its
last call have left off. -/
namespace Lexaire.System
open Atomic Transition Lexaire.Orchestrator

/-- What the running command has published and noted, the stop signal and the VLM's answer as
it last saw them, and what its calls returned. -/
structure Board where
  status : Option String := none
  stopped : Bool := false
  answer : Option (Except String VlmDecision) := none
  results : List ToolResult := []
  entries : List HistoryEntry := []

def Board.publish (b : Board) (state : String) : Board := { b with status := some state }

def Board.after (b : Board) : Label → Board
  | .takes _ => {}
  | .performs (.publishStatus state) _ | .wires (.publishStatus state) _ => b.publish state
  | .performs .stopIsSet r => { b with stopped := r }
  | .performs .vlmResult r => { b with answer := some r }
  | .returns result => { b with results := b.results ++ [result] }
  | .performs (.appendHistory entry) _ => { b with entries := b.entries ++ [entry] }
  | _ => b

/-- The last that was heard of the VLM is a failure. -/
def Board.vlmFailed (b : Board) : Bool := b.answer.any isVlmError

def board (path : Path) : Board := path.foldl (fun b p => b.after p.2) {}

theorem board_snoc (path : Path) (p : State × Label) : board (path ++ [p]) = (board path).after p.2 := by
  simp [board]

structure View where
  offline : Bool
  board : Board

/-- What a call does to it: the flag is set and said so, or it stays clear. -/
inductive CallShows (v : View) (result : ToolResult) : View → Prop where
  | lost (failed : result.ok = false) (transport : transportFailure result.error = true) :
      CallShows v result ⟨true, v.board.publish "bridge_offline"⟩
  | kept (online : v.offline = false) : CallShows v result ⟨false, v.board⟩

/-- The main thread's operations; a call is one of them. -/
def shows : (op : Orchestrator.Op) → View → op.Answer → View → Prop
  | .clearBridgeOffline, v, _, v' => v' = { v with offline := false }
  | .bridgeOffline, v, r, v' => r = v.offline ∧ v' = v
  | .dispatchToolCall _, v, r, v' => ∃ called, CallShows v r called ∧
    v' = { called with board := called.board.after (.returns r) }
  | op, v, r, v' => v' = { v with board := v.board.after (.performs op r) }

def wireShows : (op : WireOp) → View → op.Answer → View → Prop
  | .bridgeOffline, v, r, v' => r = v.offline ∧ v' = v
  | .setBridgeOffline value, v, _, v' => v' = { v with offline := value }
  | op, v, r, v' => v' = { v with board := v.board.after (.wires op r) }

/-! ## A call -/

abbrev Calls {α : Type} (post : Except WireException α → View → Prop) (p : Wire α) (v : View) : Prop :=
  p.Holds (.alone wireShows) (fun _ _ => True) post v

/-- What a call that returns shows. -/
def Returns (v : View) (r : Except WireException ToolResult) (v' : View) : Prop :=
  ∀ result, r = .ok result → CallShows v result v'

theorem onWireError_shows (tc : ToolCall) (e : WireException) {v : View} (online : v.offline = false) :
    Calls (Returns v) (onWireError tc e) v := by
  have returns {result : ToolResult} {v' : View} (shows : CallShows v result v') :
      Returns v (.ok result) v' := by
    rintro _ ⟨⟩
    exact shows
  cases e with
  | recursionError => exact .alone_raise (by rintro _ ⟨⟩)
  | caught e =>
    cases e with
    | again =>
      refine .alone_step trivial ?_
      rintro r _ rfl
      refine .alone_step trivial ?_
      rintro r _ rfl
      refine .alone_step trivial ?_
      rintro r _ rfl
      exact .alone_done (returns (.lost rfl rfl))
    | zmq what =>
      refine .alone_step trivial ?_
      rintro r _ rfl
      refine .alone_step trivial ?_
      rintro r _ rfl
      refine .alone_step trivial ?_
      rintro r _ rfl
      refine .alone_done (returns (.lost rfl ?_))
      simp [Orchestrator.failure, transportFailure, Text.startsWith, String.toList_append,
        List.isPrefixOf]
    | parse what =>
      refine .alone_step trivial ?_
      rintro r _ rfl
      obtain ⟨offline, shown⟩ := v
      obtain rfl : offline = false := online
      exact .alone_done (returns (.kept rfl))

/-- What the body of the `try` does, or leaves to its handler. -/
def Exchanges (v : View) (r : Except WireException ToolResult) (v' : View) : Prop :=
  match r with
  | .ok result => CallShows v result v'
  | .error _ => v' = v

theorem exchange_shows (tc : ToolCall) (args : List (String × Json)) {v : View}
    (online : v.offline = false) : Calls (Exchanges v) (exchange tc args) v := by
  have failed (e : WireException) : Calls (Exchanges v) (Program.raise e) v := .alone_raise rfl
  refine .alone_step trivial ?_
  rintro (e | ⟨⟩) _ rfl
  · exact failed (.caught e)
  · refine .alone_step trivial ?_
    rintro (e | ⟨⟩) _ rfl
    · exact failed e
    · refine .alone_step trivial ?_
      rintro (e | data) _ rfl
      · exact failed e
      · cases data with
        | object members =>
          refine .alone_step trivial ?_
          rintro r _ rfl
          exact .alone_done (.kept online)
        | _ => exact failed _

theorem dispatchToolCall_shows (tc : ToolCall) (v : View) :
    Calls (Returns v) (dispatchToolCall tc) v := by
  refine .alone_step trivial ?_
  rintro offline v' ⟨found, same⟩
  subst v'
  cases offline with
  | true =>
    refine .alone_step trivial ?_
    rintro r _ rfl
    obtain ⟨offline, shown⟩ := v
    obtain rfl : offline = true := found.symm
    refine .alone_done ?_
    rintro _ ⟨⟩
    exact .lost rfl rfl
  | false =>
    have caught (args : List (String × Json)) :
        Calls (Returns v) ((exchange tc args).catching (onWireError tc)) v := by
      refine .catching (exchange_shows tc args found.symm) ?_ ?_
      · rintro result v' shown _ ⟨⟩
        exact shown
      · rintro e _ rfl
        exact onWireError_shows tc e found.symm
    change Calls _ (authorizedArgs tc >>= fun args => (exchange tc args).catching (onWireError tc)) v
    unfold authorizedArgs
    split
    · refine .alone_step trivial ?_
      rintro authorized _ rfl
      exact caught _
    · exact caught _

/-! ## A command -/

abbrev Shows {α : Type} (post : α → View → Prop) (p : Orchestrator.Code α) (v : View) : Prop :=
  Program.Leads shows (fun _ _ => True) post p v

theorem shows_call {α : Type} {post : α → View → Prop} {op : Orchestrator.Op}
    {f : op.Answer → Orchestrator.Code α} {v : View}
    (after : ∀ r v', shows op v r v' → Shows post (f r) v') :
    Shows post (op.call >>= f : Orchestrator.Code α) v :=
  .alone_step trivial after

theorem recordSkipped_shows (reason : String) (skipped : List ToolCall) (v : View) :
    Shows (fun _ v' => v' = v) (recordSkipped reason skipped) v := by
  induction skipped generalizing v with
  | nil => exact Program.Leads.done rfl
  | cons tc rest ih =>
    apply shows_call
    rintro r _ rfl
    exact ih v

/-- No entry so far, and where the flag is set it was said last. -/
structure Open (v : View) : Prop where
  unnoted : v.board.entries = []
  said : v.offline = true → v.board.status = some "bridge_offline"

/-- Nothing is noted, the bridge is not lost and the VLM has not failed. -/
structure Online (v : View) : Prop where
  unnoted : v.board.entries = []
  online : v.offline = false
  decided : v.board.vlmFailed = false

/-- All but a call, the VLM's answer and the entry keep it so. -/
def notes : Orchestrator.Op → Bool
  | .dispatchToolCall _ | .vlmResult | .appendHistory _ => true
  | _ => false

theorem online_call {α : Type} {post : α → View → Prop} {op : Orchestrator.Op}
    {f : op.Answer → Orchestrator.Code α} {v : View} (online : Online v) (silent : notes op = false)
    (after : ∀ r v', Online v' → Shows post (f r) v') :
    Shows post (op.call >>= f : Orchestrator.Code α) v := by
  apply shows_call
  intro r v' effect
  apply after
  obtain ⟨unnoted, online, decided⟩ := online
  cases op with
  | dispatchToolCall | vlmResult | appendHistory => cases silent
  | bridgeOffline =>
    obtain ⟨-, rfl⟩ := effect
    exact ⟨unnoted, online, decided⟩
  | clearBridgeOffline =>
    obtain rfl := effect
    exact ⟨unnoted, rfl, decided⟩
  | _ =>
    obtain rfl := effect
    exact ⟨unnoted, online, decided⟩

theorem Online.unclosed {v : View} (online : Online v) : Open v :=
  ⟨online.unnoted, fun lost => by simp [online.online] at lost⟩

theorem interrupted_shows {v : View} (online : Online v) :
    Shows (fun _ v' => Online v') interrupted v := by
  refine online_call online rfl fun stopped v online => ?_
  cases stopped with
  | true => exact Program.Leads.done online
  | false => exact online_call online rfl fun _ _ online => Program.Leads.done online

theorem overtaken_shows {v : View} (online : Online v) : Shows (fun _ v' => Online v') overtaken v := by
  refine online_call online rfl fun preempted v online => ?_
  cases preempted with
  | true => exact Program.Leads.done online
  | false => exact online_call online rfl fun _ _ online => Program.Leads.done online

/-- How a batch may be left: with a lost bridge only as one that has met it. -/
structure BatchLeft (ended : BatchEnd) (v : View) : Prop where
  unclosed : Open v
  decided : v.board.vlmFailed = false
  lost : v.offline = true → ended = .offline

theorem dispatchBatch_shows (batch : List ToolCall) {v : View} (online : Online v) :
    Shows BatchLeft (dispatchBatch batch) v := by
  have left {v : View} (online : Online v) (ended : BatchEnd) : BatchLeft ended v :=
    ⟨online.unclosed, online.decided, fun lost => by simp [online.online] at lost⟩
  have skips {v : View} (reason : String) {ended : BatchEnd} (skipped : List ToolCall)
      (ends : BatchLeft ended v) :
      Shows BatchLeft (recordSkipped reason skipped >>= fun _ => pure ended) v := by
    refine Program.Leads.bind (recordSkipped_shows reason skipped v) ?_
    rintro _ _ rfl
    exact Program.Leads.done ends
  induction batch generalizing v with
  | nil => exact Program.Leads.done (left online _)
  | cons tc rest ih =>
    refine Program.Leads.bind (interrupted_shows online) fun cut v online => ?_
    cases cut with
    | true => exact skips _ _ (left online _)
    | false =>
      apply shows_call
      rintro result _ ⟨called, shown, rfl⟩
      cases shown with
      | lost failed transport =>
        apply shows_call
        rintro r _ rfl
        have judged : verdict tc result = .offline := by simp [verdict, transport]
        rw [judged]
        exact skips _ _ ⟨⟨online.unnoted, fun _ => rfl⟩, online.decided, fun _ => rfl⟩
      | kept =>
        have online : Online ⟨false, v.board.after (.returns result)⟩ :=
          ⟨online.unnoted, rfl, online.decided⟩
        refine online_call online rfl fun _ v online => ?_
        cases verdict tc result with
        | offline | terminal => exact skips _ _ (left online _)
        | failed =>
          refine online_call online rfl fun mission v online => ?_
          refine Program.Leads.bind (recordSkipped_shows _ rest v) ?_
          rintro _ _ rfl
          split <;> exact Program.Leads.done (left online _)
        | next => exact ih online

/-- Neither preempted nor left by a terminal call. -/
def Plain (ended : LoopEnd) : Prop := ended.preempted = false ∧ ended.terminalCall = none

/-- How the loop may be left: by a lost bridge or a failed VLM only as such. -/
structure LoopLeft (ended : LoopEnd) (v : View) : Prop where
  unclosed : Open v
  answered : ended.vlmError.isSome = v.board.vlmFailed
  lost : v.offline = true → Plain ended ∧ v.board.vlmFailed = false
  failed : v.board.vlmFailed = true → Plain ended

theorem decisionLoop_shows (text : String) (left decisionCount : Nat) {v : View} (online : Online v) :
    Shows LoopLeft (decisionLoop text left decisionCount) v := by
  have leaves {v : View} (online : Online v) {ended : LoopEnd} (fine : ended.vlmError = none) :
      LoopLeft ended v :=
    ⟨online.unclosed, by simp [fine, online.decided], fun lost => by simp [online.online] at lost,
      fun failed => by simp [online.decided] at failed⟩
  induction left generalizing decisionCount v with
  | zero => exact Program.Leads.done (leaves online rfl)
  | succ left ih =>
    refine online_call online rfl fun stopped v online => ?_
    cases stopped with
    | true => exact Program.Leads.done (leaves online rfl)
    | false =>
      refine Program.Leads.bind (overtaken_shows online) fun overtaken v online => ?_
      cases overtaken with
      | true => exact Program.Leads.done (leaves online rfl)
      | false =>
        refine online_call online rfl fun mission v online => ?_
        refine online_call online rfl fun _ v online => ?_
        refine online_call online rfl fun _ v online => ?_
        refine online_call online rfl fun _ v online => ?_
        refine online_call online rfl fun preempted v online => ?_
        cases preempted with
        | true => exact Program.Leads.done (leaves online rfl)
        | false =>
          refine online_call online rfl fun stopped v online => ?_
          cases stopped with
          | true => exact Program.Leads.done (leaves online rfl)
          | false =>
            apply shows_call
            rintro result _ rfl
            have gives_up {ended : LoopEnd} (plain : Plain ended) (what : ended.vlmError.isSome = true)
                (failed : isVlmError result = true) :
                LoopLeft ended { v with board := v.board.after (.performs .vlmResult result) } := by
              refine ⟨⟨online.unnoted, ?_⟩, what.trans failed.symm, ?_, fun _ => plain⟩
              · exact fun lost => absurd lost (by simp [online.online])
              · exact fun lost => absurd lost (by simp [online.online])
            have goes_on (fine : isVlmError result = false) :
                Online { v with board := v.board.after (.performs .vlmResult result) } :=
              ⟨online.unnoted, online.online, fine⟩
            cases result with
            | error what => exact Program.Leads.done (gives_up ⟨rfl, rfl⟩ rfl rfl)
            | ok decision =>
              change Shows LoopLeft (if decision.toolCalls = [] then _ else _) _
              split
              · next silent =>
                split
                · next failed =>
                  exact Program.Leads.done (gives_up ⟨rfl, rfl⟩ rfl (by simp [isVlmError, silent, failed]))
                · next fine =>
                  exact Program.Leads.done (leaves (goes_on (by simp [isVlmError, fine])) rfl)
              · next busy =>
                refine online_call (goes_on (by simp [isVlmError, busy])) rfl fun _ v online => ?_
                refine Program.Leads.bind (dispatchBatch_shows decision.toolCalls online) ?_
                rintro ended v' ⟨unclosed, decided, lost⟩
                have still (other : ended ≠ .offline) : Online v' := by
                  refine ⟨unclosed.unnoted, ?_, decided⟩
                  cases offline : v'.offline with
                  | false => rfl
                  | true => exact absurd (lost offline) other
                cases ended with
                | preempted | stuck | terminal =>
                  exact Program.Leads.done (leaves (still (by simp)) rfl)
                | offline =>
                  refine Program.Leads.done ⟨unclosed, decided.symm, ?_, fun _ => ⟨rfl, rfl⟩⟩
                  exact fun _ => ⟨⟨rfl, rfl⟩, decided⟩
                | failed | through => exact ih (decisionCount + 1) (still (by simp))

/-- What has happened decides which of these labels is given. A stop that was seen at the end
goes before all others. -/
structure Reasoned (reason : EndReason) (v : View) : Prop where
  stopped : reason = .stopped ↔ v.board.stopped = true
  lost : reason = .bridgeOffline ↔ v.offline = true ∧ v.board.stopped = false
  failed : reason = .vlmError ↔ v.board.vlmFailed = true ∧ v.board.stopped = false

theorem endReason_shows (maxSteps : Int) {ended : LoopEnd} {v : View} (left : LoopLeft ended v) :
    Shows (fun reason v' => Open v' ∧ Reasoned reason v') (endReason maxSteps ended) v := by
  apply shows_call
  rintro stopped v' same
  have left : LoopLeft ended v' := same ▸ ⟨⟨left.unclosed.unnoted, left.unclosed.said⟩,
    left.answered, left.lost, left.failed⟩
  have stop : v'.board.stopped = stopped := same ▸ rfl
  obtain ⟨unclosed, answered, lost, failed⟩ := left
  cases stopped with
  | true => exact Program.Leads.done ⟨unclosed, by simp [stop], by simp [stop], by simp [stop]⟩
  | false =>
    -- a label that neither the bridge nor the VLM has to do with
    have other {reason : EndReason} (unstopped : reason ≠ .stopped) (notLost : reason ≠ .bridgeOffline)
        (notFailed : reason ≠ .vlmError) (online : v'.offline = false)
        (decided : v'.board.vlmFailed = false) :
        Shows (fun reason v' => Open v' ∧ Reasoned reason v')
          (pure reason : Orchestrator.Code EndReason) v' :=
      Program.Leads.done ⟨unclosed, by simp [unstopped, stop], by simp [notLost, online],
        by simp [notFailed, decided]⟩
    have calm (eventful : ¬ Plain ended) : v'.offline = false ∧ v'.board.vlmFailed = false :=
      ⟨Bool.eq_false_iff.mpr fun offline => eventful (lost offline).1,
        Bool.eq_false_iff.mpr fun error => eventful (failed error)⟩
    change Shows _ (if ended.preempted = true then _ else _) _
    split
    · next preempted =>
      have calm := calm fun plain => by simp [plain.1] at preempted
      exact other (by simp) (by simp) (by simp) calm.1 calm.2
    · cases called : ended.terminalCall with
      | some tool =>
        have calm := calm fun plain => by simp [plain.2] at called
        exact other (by simp) (by simp) (by simp) calm.1 calm.2
      | none =>
        apply shows_call
        rintro offline v'' ⟨found, same⟩
        subst v''
        cases offline with
        | true =>
          have decided := (lost found.symm).2
          exact Program.Leads.done ⟨unclosed, by simp [stop], by simp [← found, stop],
            by simp [decided]⟩
        | false =>
          change Shows _ (if ended.vlmError.isSome = true then _ else if _ then _ else if _ then _ else _) _
          rw [answered]
          split
          · next error =>
            exact Program.Leads.done ⟨unclosed, by simp [stop], by simp [← found],
              by simp [error, stop]⟩
          · next fine =>
            have decided : v'.board.vlmFailed = false := by simpa using fine
            split
            · exact other (by simp) (by simp) (by simp) found.symm decided
            · split <;> exact other (by simp) (by simp) (by simp) found.symm decided

/-- The status with which a mission of this reason is left. -/
def missionStatus : EndReason → String
  | .vlmError => "vlm_error"
  | .bridgeOffline => "bridge_offline"
  | _ => "idle"

def abortStatus (result : ToolResult) (offline : Bool) : String :=
  if result.ok then "aborted" else if offline then "bridge_offline" else "abort_failed"

/-- A command that is done: its one entry and the status that stands, both by what happened. -/
inductive Settled (settings : Orchestrator.Settings) (cmd : VoiceCommand) (v : View) : Prop where
  | aborted {result : ToolResult} (abort : settings.isAbort cmd = true)
      (called : v.board.results = [result]) (noted : v.board.entries = [.aborted cmd.text result])
      (reached : result.ok = true → v.offline = false)
      (status : v.board.status = some (abortStatus result v.offline))
  | mission {decisions tools : Nat} {reason : EndReason} (other : settings.isAbort cmd = false)
      (noted : v.board.entries = [.mission cmd.text decisions tools reason])
      (reasoned : Reasoned reason v) (status : v.board.status = some (missionStatus reason))

theorem mission_shows {settings : Orchestrator.Settings} {cmd : VoiceCommand}
    (other : settings.isAbort cmd = false) {v : View} (online : Online v) :
    Shows (fun _ v' => Settled settings cmd v') (mission settings.maxSteps cmd.text) v := by
  refine online_call online rfl fun _ v online => ?_
  refine Program.Leads.bind (decisionLoop_shows cmd.text _ 0 online) fun ended v left => ?_
  refine Program.Leads.bind (endReason_shows settings.maxSteps left) ?_
  rintro reason v ⟨unclosed, reasoned⟩
  apply shows_call
  rintro mission _ rfl
  apply shows_call
  rintro r v' rfl
  have noted : v.board.entries ++ [.mission cmd.text ended.decisionCount mission.currentStep reason] =
      [.mission cmd.text ended.decisionCount mission.currentStep reason] := by
    rw [unclosed.unnoted, List.nil_append]
  have reasoned (state : Option String) (entries : List HistoryEntry) :
      Reasoned reason { v with board := { v.board with status := state, entries } } :=
    ⟨reasoned.stopped, reasoned.lost, reasoned.failed⟩
  change Shows _ (if reason = .vlmError then _ else if reason = .bridgeOffline then _ else _) _
  split
  · next failed =>
    subst failed
    refine .alone_step trivial ?_
    rintro r _ rfl
    exact Program.Leads.done (.mission other noted (reasoned _ _) rfl)
  · split
    · next notFailed offline =>
      subst offline
      have lost := ((reasoned v.board.status []).lost.mp rfl).1
      exact Program.Leads.done (.mission other noted (reasoned _ _) (unclosed.said lost))
    · next notFailed notLost =>
      have idle : missionStatus reason = "idle" := by
        cases reason <;> simp_all [missionStatus]
      refine .alone_step trivial ?_
      rintro r _ rfl
      exact Program.Leads.done (.mission other noted (reasoned _ _) (congrArg some idle.symm))

theorem abort_shows {settings : Orchestrator.Settings} {cmd : VoiceCommand}
    (abort : settings.isAbort cmd = true) {v : View} (unnoted : v.board.entries = [])
    (uncalled : v.board.results = []) :
    Shows (fun _ v' => Settled settings cmd v') (Orchestrator.abort cmd.text) v := by
  -- the last line of both branches
  have notes (result : ToolResult) {v : View} (unnoted : v.board.entries = [])
      (called : v.board.results = [result]) (reached : result.ok = true → v.offline = false)
      (status : v.board.status = some (abortStatus result v.offline)) :
      Shows (fun _ v' => Settled settings cmd v')
        ((Op.appendHistory (.aborted cmd.text result)).call : Orchestrator.Code Unit) v := by
    refine .alone_step trivial ?_
    rintro r _ rfl
    refine Program.Leads.done (.aborted abort called ?_ reached status)
    simp [Board.after, unnoted]
  apply shows_call
  rintro r _ rfl
  apply shows_call
  rintro requestId _ rfl
  apply shows_call
  rintro result _ ⟨asked, shown, rfl⟩
  have called : v.board.results ++ [result] = [result] := by rw [uncalled, List.nil_append]
  change Shows _ (if (!result.ok) = true then _ else _) _
  cases shown with
  | lost failed transport =>
    simp only [failed, Bool.not_false, if_true]
    apply shows_call
    rintro offline _ ⟨found, rfl⟩
    obtain rfl : offline = true := found
    apply shows_call
    rintro r _ rfl
    exact notes result unnoted called (by simp [failed])
      (by simp [Board.after, Board.publish, abortStatus, failed])
  | kept =>
    cases accepted : result.ok with
    | true =>
      exact notes result unnoted called (fun _ => rfl)
        (by simp [Board.after, Board.publish, abortStatus, accepted])
    | false =>
      simp only [Bool.not_false, if_true]
      apply shows_call
      rintro offline _ ⟨found, rfl⟩
      obtain rfl : offline = false := found
      apply shows_call
      rintro r _ rfl
      exact notes result unnoted called (fun _ => rfl)
        (by simp [Board.after, Board.publish, abortStatus, accepted])

theorem onCommand_shows (settings : Orchestrator.Settings) (cmd : VoiceCommand) {v : View}
    (fresh : v.board = {}) :
    Shows (fun _ v' => Settled settings cmd v') (onCommand settings cmd) v := by
  apply shows_call
  rintro r _ rfl
  apply shows_call
  rintro r _ rfl
  apply shows_call
  rintro r _ rfl
  split
  · next abort => exact abort_shows abort (by simp [Board.after, fresh]) (by simp [Board.after, fresh])
  · next other =>
    exact mission_shows (by simpa using other)
      ⟨by simp [Board.after, fresh], rfl, by simp [Board.after, fresh, Board.vlmFailed]⟩

/-! ## Runs -/

def view (path : Path) (s : State) : View := ⟨s.session.link.offline, board path⟩

theorem view_snoc (path : Path) (s s' : State) (e : Label) :
    view (path ++ [(s, e)]) s' = ⟨s'.session.link.offline, (board path).after e⟩ := by
  rw [view, board_snoc]

theorem linkPerforms_shows {op : Orchestrator.Op} {r : op.Answer} {l l' : Link} (b : Board)
    (own : isCall op = false) (effect : linkPerforms op l r l') :
    shows op ⟨l.offline, b⟩ r ⟨l'.offline, b.after (.performs op r)⟩ := by
  cases op with
  | dispatchToolCall => cases own
  | bridgeOffline =>
    obtain ⟨found, rfl⟩ := effect
    exact ⟨found, rfl⟩
  | _ =>
    obtain rfl := effect
    rfl

theorem performs_wireShows {replied : Nat → Json → Prop} {op : WireOp} {r : op.Answer} {l l' : Link}
    (b : Board) (effect : l.performs replied op r l') :
    wireShows op ⟨l.offline, b⟩ r ⟨l'.offline, b.after (.wires op r)⟩ := by
  cases op with
  | bridgeOffline =>
    obtain ⟨found, rfl⟩ := effect
    exact ⟨found, rfl⟩
  | currentArmAuthorized =>
    obtain ⟨-, rfl⟩ := effect
    rfl
  | setBridgeOffline | publishStatus | resetReqSocket =>
    obtain rfl := effect
    rfl
  | ensureReqSocket =>
    cases r with
    | ok =>
      obtain rfl := effect
      rfl
    | error =>
      obtain ⟨-, rfl⟩ := effect
      rfl
  | send =>
    cases r with
    | ok =>
      obtain ⟨-, rfl⟩ := effect
      rfl
    | error =>
      obtain rfl := effect
      rfl
  | recv =>
    cases r with
    | ok =>
      obtain ⟨-, -, -, rfl⟩ := effect
      rfl
    | error e =>
      rcases Link.performs_error effect with ⟨-, -, rfl⟩ | rfl <;> rfl

/-- The code that is left leads to the right status, over the call that is open if one is. -/
structure Displays (cfg : Settings) (path : Path) (s : State) : Prop where
  between : ∀ {cmd rest}, s.task = some ⟨cmd, rest⟩ → s.session.call = none →
    Shows (fun _ v => Settled cfg.orchestrator cmd v) rest (view path s)
  calling : ∀ {call}, s.session.call = some call → ∃ cmd next asked,
    s.task = some ⟨cmd, .step (.dispatchToolCall call.tc) next⟩ ∧
    Shows (fun _ v => Settled cfg.orchestrator cmd v) (.step (.dispatchToolCall call.tc) next) asked ∧
    Calls (Returns asked) call.rest (view path s)

namespace Displays
variable {cfg : Settings} {path : Path} {s s' : State} {e : Label}

theorem initial : Displays cfg [] {} := ⟨by simp, by simp⟩

theorem uncalled (inv : Displays cfg path s) {cmd : VoiceCommand} {rest : Orchestrator.Code Unit}
    (at_task : s.task = some ⟨cmd, rest⟩)
    (own : ∀ tc next, rest ≠ .step (.dispatchToolCall tc) next) : s.session.call = none := by
  cases calling : s.session.call with
  | none => rfl
  | some call =>
    obtain ⟨cmd', next, asked, task, -⟩ := inv.calling calling
    rw [at_task] at task
    exact absurd (congrArg Task.rest (Option.some.inj task)) (own _ _)

/-- A step of the others. -/
theorem aside (inv : Displays cfg path s) (task : s'.task = s.task) (session : s'.session = s.session)
    (silent : ∀ b : Board, b.after e = b) : Displays cfg (path ++ [(s, e)]) s' := by
  have same : view (path ++ [(s, e)]) s' = view path s := by
    rw [view_snoc, silent, session]
    rfl
  constructor
  · rw [task, session, same]
    exact inv.between
  · rw [task, session, same]
    exact inv.calling

theorem step (inv : Displays cfg path s) (moved : Next cfg s e s') :
    Displays cfg (path ++ [(s, e)]) s' := by
  cases moved with
  | @takes cmd idle =>
    constructor
    · rintro _ _ ⟨⟩ -
      exact onCommand_shows cfg.orchestrator cmd (by rw [view_snoc]; rfl)
    · intro call calling
      obtain ⟨cmd', next, asked, task, -⟩ := inv.calling calling
      rw [idle] at task
      cases task
  | performs at_op own effect =>
    have between := inv.uncalled at_op fun tc next same => by
      obtain ⟨rfl, -⟩ := Program.step.inj same
      cases own
    constructor
    · rintro _ _ ⟨⟩ -
      rw [view_snoc]
      exact (inv.between at_op between).performed (linkPerforms_shows _ own effect)
    · intro call calling
      rw [between] at calling
      cases calling
  | calls at_op moved =>
    cases moved with
    | calls between =>
      constructor
      · intro cmd rest _ calling
        cases calling
      · rintro _ ⟨⟩
        refine ⟨_, _, view path s, at_op, inv.between at_op between, ?_⟩
        rw [view_snoc]
        exact dispatchToolCall_shows _ _
  | wires moved =>
    cases moved with
    | wires calling effect =>
      constructor
      · intro cmd rest _ calling
        cases calling
      · rintro _ ⟨⟩
        obtain ⟨cmd, next, asked, task, left, call⟩ := inv.calling calling
        refine ⟨cmd, next, asked, task, left, ?_⟩
        rw [view_snoc]
        exact call.performed (performs_wireShows _ effect)
  | returns at_op moved =>
    cases moved with
    | returns ended =>
      constructor
      · rintro _ _ ⟨⟩ -
        obtain ⟨cmd', next', asked, task, left, call⟩ := inv.calling ended
        rw [at_op] at task
        obtain ⟨rfl, rest⟩ := Task.mk.inj (Option.some.inj task)
        obtain ⟨same, rest⟩ := Program.step.inj rest
        cases same
        obtain rfl := eq_of_heq rest
        rw [view_snoc]
        exact left.performed ⟨_, call.returned _ rfl, rfl⟩
      · intro call calling
        cases calling
  | finishes ended =>
    have between := inv.uncalled ended (by simp)
    constructor
    · rintro _ _ ⟨⟩
    · intro call calling
      rw [between] at calling
      cases calling
  | handles => exact inv.aside rfl rfl fun _ => rfl
  | reports | polls | watches => exact inv.aside rfl rfl fun _ => rfl

theorem reached (run : Run (Next cfg) {} path s) : Displays cfg path s :=
  run.invariant_history (fun _ _ => True) (fun inv _ moved => inv.step moved) .initial
    fun _ _ _ _ => trivial

end Displays

/-- Whenever a command is done it has noted exactly one entry, and the last status that was
published for it, by the loop or by its calls, is the one of that entry. An abort's is by the
result of its one call. A mission shows a bridge that is flagged offline or a VLM that failed
last, unless a stop was seen at the end, and otherwise it shows as idle. -/
theorem status_settled {cfg : Settings} {path before after : Path} {s t : State}
    (run : Run (Next cfg) {} path s) (split : path = before ++ (t, .finishes) :: after) :
    ∃ cmd, t.task = some ⟨cmd, .done ()⟩ ∧ Settled cfg.orchestrator cmd (view before t) := by
  obtain ⟨_, to_t, moved⟩ := run.split split
  have inv := Displays.reached to_t
  cases moved with
  | @finishes cmd ended =>
    have between := inv.uncalled ended (by simp)
    exact ⟨cmd, ended, (inv.between ended between).returned () rfl⟩

/-- An abort that nobody answers. -/
def lostAbortLabels : List Label :=
  let tc : ToolCall := { requestId := "2", name := "abort" }
  [.takes { text := "abort" }, .performs .clearBridgeOffline (), .performs .preemptClear (),
    .performs (.setArmAuthorized false) (), .performs (.publishStatus "aborted") (),
    .performs .newRequestId tc.requestId] ++
  sendLabels tc [] false ++ timeoutLabels tc ++
  [.performs .bridgeOffline true, .performs (.publishStatus "bridge_offline") (),
    .performs (.appendHistory (.aborted "abort" (failure tc "timeout"))) (), .finishes]

def finished (p : State × Label) : Bool :=
  match p.2 with
  | .finishes => true
  | _ => false

theorem status_settled_lost : ∃ path s before t after cmd, Run (Next plainSettings) {} path s ∧
    path = before ++ (t, .finishes) :: after ∧ t.task = some ⟨cmd, .done ()⟩ ∧
    Settled plainSettings.orchestrator cmd (view before t) := by
  have checked : (replay (step? plainSettings) {} lostAbortLabels).any
      (fun ran => ran.1.any finished) = true := by
    decide +kernel
  obtain ⟨⟨path, s⟩, ran, ended⟩ := (Option.any_eq_true _ _).mp checked
  obtain ⟨⟨t, e⟩, member, last⟩ := List.any_eq_true.mp ended
  obtain ⟨before, after, split⟩ := List.append_of_mem member
  unfold finished at last
  split at last
  · rename_i done
    obtain rfl := done
    have run := run_of_script ran
    obtain ⟨cmd, task, settled⟩ := status_settled run split
    exact ⟨path, s, before, t, after, cmd, run, split, task, settled⟩
  · cases last

end Lexaire.System
