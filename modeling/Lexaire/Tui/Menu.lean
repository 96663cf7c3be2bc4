import Lexaire.Core.Transition
import Mathlib.Algebra.Group.Int.Defs
import Mathlib.Data.List.Perm.Basic

/-! The menu of the TUI (`main.cpp`): one thread that handles key input, a timer and
the completions of the processes it has spawned. Each process is known by the handler
that waits for it; what it writes to the terminal and the log is left out. -/
namespace Lexaire.Tui
open Transition

inductive State where
  | mainMenu | subMenu | monitoring | services
deriving DecidableEq

/-- `unknown` is an unreachable daemon, `deploying` a startup command in flight. -/
inductive ServiceState where
  | unknown | down | deploying | up
deriving DecidableEq

inductive Target where
  | relay | publisher | stack
deriving DecidableEq

/-- A spawned process, by its completion handler and what that has captured. -/
inductive Job where
  | preflight
  | relayCheck
  | publisherCheck
  | stackQuery
  | startupDeploy (target : Target)
  | menuDeploy (target : Target) (okSuffix : String)
deriving DecidableEq

structure AppContext where
  state : State := .mainMenu
  relayState : ServiceState := .unknown
  publisherState : ServiceState := .unknown
  stackState : ServiceState := .unknown
  subContent : String := ""
  droneHost : String
  publisherRepo : String
  inFlight : List Job := []

namespace AppContext

def service (ctx : AppContext) : Target → ServiceState
  | .relay => ctx.relayState
  | .publisher => ctx.publisherState
  | .stack => ctx.stackState

def setService (ctx : AppContext) (target : Target) (s : ServiceState) : AppContext :=
  match target with
  | .relay => { ctx with relayState := s }
  | .publisher => { ctx with publisherState := s }
  | .stack => { ctx with stackState := s }

def spawn (ctx : AppContext) (job : Job) : AppContext := { ctx with inFlight := ctx.inFlight ++ [job] }

def subView (ctx : AppContext) (content : String) : AppContext :=
  { ctx with subContent := content, state := .subMenu }

section
variable (ctx : AppContext) (target target' : Target) (s : ServiceState) (job : Job)
  (content : String)

@[simp] theorem service_setService : (ctx.setService target s).service target' =
    if target' = target then s else ctx.service target' := by
  cases target <;> cases target' <;> rfl

@[simp] theorem inFlight_setService : (ctx.setService target s).inFlight = ctx.inFlight := by
  cases target <;> rfl

@[simp] theorem service_spawn : (ctx.spawn job).service target = ctx.service target := by
  cases target <;> rfl

@[simp] theorem inFlight_spawn : (ctx.spawn job).inFlight = ctx.inFlight ++ [job] := rfl

@[simp] theorem service_subView : (ctx.subView content).service target = ctx.service target := by
  cases target <;> rfl

@[simp] theorem inFlight_subView : (ctx.subView content).inFlight = ctx.inFlight := rfl
end

end AppContext

/-! ## Menu commands -/

/-- The whitespace that `std::stoi` skips. -/
def isSpace (c : Char) : Bool := c == ' ' || ('\t' ≤ c && c ≤ '\r')

/-- `std::stoi`, with 0 where it throws. -/
def choiceOf (cmd : String) : Int :=
  let text := cmd.toList.dropWhile isSpace
  let (sign, digits) : Int × List Char := match text with
    | '-' :: rest => (-1, rest)
    | '+' :: rest => (1, rest)
    | rest => (1, rest)
  let value := (digits.takeWhile Char.isDigit).foldl
    (fun n c => 10 * n + ((c.toNat - 48 : Nat) : Int)) (0 : Int)
  if -2 ^ 31 ≤ sign * value ∧ sign * value < 2 ^ 31 then sign * value else 0

/-- What follows the `@` of the drone's address, all of it where there is none. -/
def hostOf (droneHost : String) : String :=
  match droneHost.toList.dropWhile (· ≠ '@') with
  | _ :: host => String.ofList host
  | [] => droneHost

/-- Common scaffolding of the deploys started from the menu. -/
def runDeploy (ctx : AppContext) (target : Target) (title progress okSuffix : String) : AppContext :=
  ((ctx.setService target .deploying).subView ("  " ++ title ++ "\n\n  " ++ progress ++ "\n\n")).spawn
    (.menuDeploy target okSuffix)

/-- What a menu item shows while its target's deploy is in flight. -/
def inProgress (title what : String) : String :=
  "  " ++ title ++ "\n\n  A " ++ what ++ " is already in progress. Wait for it\n" ++
    "  to finish before retrying.\n\n  Press Enter to return."

/-- A second press while a deploy is in flight only says so. -/
def guardedDeploy (ctx : AppContext) (target : Target) (title what progress okSuffix : String) :
    AppContext :=
  if ctx.service target = .deploying then ctx.subView (inProgress title what)
  else runDeploy ctx target title progress okSuffix

def startPreflight (ctx : AppContext) : AppContext :=
  (ctx.subView "  PRE-FLIGHT CHECK\n\n  Running checks...\n\n").spawn .preflight

def showQgcSetup (ctx : AppContext) : AppContext :=
  ctx.subView ("  QGROUNDCONTROL SETUP\n\n  Connect QGC:\n    Comm Links -> Add -> UDP\n" ++
    "    Server address : " ++ hostOf ctx.droneHost ++ "\n    Port           : 14550\n\n" ++
    "  Press Enter to return.")

def restartRelay (ctx : AppContext) : AppContext :=
  guardedDeploy ctx .relay "RESTART RELAY" "deploy"
    "Redeploying - may take a few minutes if the image rebuilds..." "  Relay redeployed."

/-- Between the guard and the deploy this one asks for a configured repository. -/
def restartPublisher (ctx : AppContext) : AppContext :=
  if ctx.service .publisher ≠ .deploying ∧ ctx.publisherRepo = "" then
    ctx.subView ("  RESTART PUBLISHER\n\n  sensor.publisher_repo is not set in common/config.yaml.\n" ++
      "  Set it to a docker-based ZMQ publisher repo URL\n" ++
      "  (default: https://github.com/9LogM/RS-L515-Docker)\n  and try again.\n\n" ++
      "  Press Enter to return.")
  else
    guardedDeploy ctx .publisher "RESTART PUBLISHER" "deploy"
      "Syncing with origin and rebuilding if needed - may take a few minutes..."
      "  Publisher redeployed."

def restartStack (ctx : AppContext) : AppContext :=
  guardedDeploy ctx .stack "RESTART GCS STACK" "restart"
    "Rebuilding and restarting local services..." "  GCS stack restarted."

/-- Enter in the menu carries out the choice, in any other view it goes back. -/
def processCommand (ctx : AppContext) (cmd : String) : AppContext :=
  if ctx.state = .mainMenu then
    if cmd = "" then ctx
    else match choiceOf cmd with
      | 1 => startPreflight ctx
      | 2 => showQgcSetup ctx
      | 3 => { ctx with state := .monitoring }
      | 4 => { ctx with state := .services }
      | 5 => restartRelay ctx
      | 6 => restartPublisher ctx
      | 7 => restartStack ctx
      | _ => ctx
  else { ctx with state := .mainMenu }

/-! ## Completions -/

def exitToState (rc : Int) : ServiceState :=
  if rc = 0 then .up else if rc = 1 then .down else .unknown

/-- How a deploy leaves its target. -/
def deployed (rc : Int) : ServiceState := if rc = 0 then .up else .unknown

/-- A startup check that does not find its target up deploys it. -/
def checked (ctx : AppContext) (target : Target) (rc : Int) : AppContext :=
  let ctx := ctx.setService target (exitToState rc)
  if ctx.service target = .up then ctx
  else (ctx.setService target .deploying).spawn (.startupDeploy target)

def noOutput : String :=
  "  PRE-FLIGHT CHECK\n\n  Script produced no output. " ++
    "Verify scripts/preflight.sh exists and is executable."

/-- The handler of a job that exits with `rc`; `output` is what a preflight has written. -/
def complete (ctx : AppContext) (rc : Int) (output : String) : Job → AppContext
  | .preflight => { ctx with
      subContent := (if output = "" then noOutput else output) ++ "\n\n  Exit code " ++ toString rc ++
        (if rc = 0 then "  (passed)\n" else "  (blocked - fix [FAIL] entries above)\n") ++
        "\n  Press Enter to return." }
  | .relayCheck => checked ctx .relay rc
  | .publisherCheck => checked ctx .publisher rc
  | .stackQuery =>
    if ctx.stackState ≠ .deploying then { ctx with stackState := exitToState rc } else ctx
  | .startupDeploy target => ctx.setService target (deployed rc)
  | .menuDeploy target okSuffix => { ctx.setService target (deployed rc) with
      subContent := ctx.subContent ++
        (if rc = 0 then okSuffix
          else "  Failed (exit " ++ toString rc ++ ").\n  See /tmp/lexaire-tui.log for stderr.") ++
        "\n\n  Press Enter to return." }

/-! ## The event loop -/

def refreshStackState (ctx : AppContext) : AppContext := ctx.spawn .stackQuery

def ensureRelayRunning (ctx : AppContext) : AppContext := ctx.spawn .relayCheck

def ensurePublisherRunning (ctx : AppContext) : AppContext :=
  if ctx.publisherRepo = "" then ctx else ctx.spawn .publisherCheck

/-- What `main` has started when the loop begins. -/
def launched (droneHost publisherRepo : String) : AppContext :=
  ensurePublisherRunning (ensureRelayRunning (refreshStackState { droneHost, publisherRepo }))

/-- The timer of the stack state, a line of input, or the end of a process in flight. -/
inductive Label where
  | stackTick
  | enters (cmd : String)
  | completes (place : Nat) (rc : Int) (output : String)

def AppContext.step? (ctx : AppContext) : Label → Option AppContext
  | .stackTick => some (refreshStackState ctx)
  | .enters cmd => some (processCommand ctx cmd)
  | .completes place rc output =>
    ctx.inFlight[place]?.map
      (complete { ctx with inFlight := ctx.inFlight.eraseIdx place } rc output)

def AppContext.Next (ctx : AppContext) (label : Label) (ctx' : AppContext) : Prop :=
  ctx.step? label = some ctx'

end Lexaire.Tui
