import Lexaire.Core.ShellRun
import Lexaire.Tui.DeployCommand

/-! The startup check of the relay: a script that asks `docker` for its container, and the
state that its exit code stands for. -/
namespace Lexaire.Tui
open Shell

def psQueryShell (envPrefix filterArgs : String) : String :=
  envPrefix ++
    " out=$(docker ps -q " ++ filterArgs ++ " 2>>" ++ tuiLogPath ++ ")" ++
    " ; rc=$?" ++
    " ; if [ \"$rc\" -ne 0 ]; then exit 2" ++
    " ; elif [ -z \"$out\" ]; then exit 1" ++
    " ; else exit 0" ++
    " ; fi"

/-- The command of `ensureRelayRunning`. -/
def relayCheckCmd (ctx : AppContext) : String :=
  psQueryShell ("DOCKER_HOST='ssh://" ++ shellSquote ctx.droneHost ++ "'")
    "--filter name=lexaire-relay"

def relayDeployCmd (ctx : AppContext) (serialDevice : String) (serialBaud : Int) : String :=
  "DOCKER_HOST='ssh://" ++ shellSquote ctx.droneHost ++ "'" ++
    " SERIAL_DEVICE='" ++ shellSquote serialDevice ++ "'" ++
    " SERIAL_BAUD=" ++ toString serialBaud ++
    " docker compose -f relay/docker-compose.yaml up -d --build" ++
    " >>" ++ tuiLogPath ++ " 2>&1"

/-! ## The scripts -/

def sshUrl (droneHost : String) : String := "ssh://" ++ droneHost

/-- The assignments of `envPrefix` stand on the line of the substitution. -/
def psQuery (assignment : String × Value) (filterArgs : String) : Script :=
  .seq (.seq
    (.assign [assignment, ("out", .output ("docker ps -q " ++ filterArgs ++ " 2>>" ++ tuiLogPath))])
    (.assign [("rc", .status)]))
    (.cond (.notEqual (.variable "rc") 0) (.exit 2)
      (.cond (.isEmpty (.variable "out")) (.exit 1) (.exit 0)))

def relayCheck (droneHost : String) : Script :=
  psQuery ("DOCKER_HOST", .single (sshUrl droneHost)) "--filter name=lexaire-relay"

def deployAssignments (droneHost serialDevice : String) (serialBaud : Int) : Assignments :=
  [("DOCKER_HOST", .single (sshUrl droneHost)), ("SERIAL_DEVICE", .single serialDevice),
    ("SERIAL_BAUD", .literal (toString serialBaud))]

def composeCommand : String :=
  "docker compose -f relay/docker-compose.yaml up -d --build >>" ++ tuiLogPath ++ " 2>&1"

def relayDeploy (droneHost serialDevice : String) (serialBaud : Int) : Script :=
  .program (deployAssignments droneHost serialDevice serialBaud) composeCommand

theorem render_psQuery (name : String) (v : Value) (filterArgs : String) :
    (psQuery (name, v) filterArgs).render = psQueryShell (name ++ "=" ++ v.render) filterArgs := by
  have numbers : toString (0 : Int) = "0" ∧ toString 0 = "0" ∧ toString 1 = "1" ∧ toString 2 = "2" := by
    decide
  obtain ⟨start, zero, one, two⟩ := numbers
  apply String.toList_injective
  simp only [psQuery, psQueryShell, Script.render, Script.renderElse, Assignments.render,
    Value.render, Test.render, start, zero, one, two, String.toList_append, List.append_assoc]
  rfl

theorem render_single (s : String) : (Value.single s).render = "'" ++ shellSquote s ++ "'" := rfl

theorem single_sshUrl (droneHost : String) :
    (Value.single (sshUrl droneHost)).render = "'ssh://" ++ shellSquote droneHost ++ "'" := by
  have scheme : "ssh://".toList.flatMap escape = "ssh://".toList := by decide
  apply String.toList_injective
  simp only [Value.render, sshUrl, String.toList_append, String.toList_ofList, List.flatMap_append,
    scheme, toList_shellSquote, List.append_assoc]
  rfl

theorem render_relayCheck (ctx : AppContext) :
    (relayCheck ctx.droneHost).render = relayCheckCmd ctx := by
  rw [relayCheck, render_psQuery, relayCheckCmd, single_sshUrl, ← String.append_assoc,
    ← String.append_assoc]
  rfl

theorem render_relayDeploy (ctx : AppContext) (serialDevice : String) (serialBaud : Int) :
    (relayDeploy ctx.droneHost serialDevice serialBaud).render =
      relayDeployCmd ctx serialDevice serialBaud := by
  have host : "DOCKER_HOST='ssh://" = "DOCKER_HOST" ++ "=" ++ "'ssh://" := by decide
  have device : " SERIAL_DEVICE='" = " " ++ "SERIAL_DEVICE" ++ "=" ++ "'" := by decide
  have baud : " SERIAL_BAUD=" = " " ++ "SERIAL_BAUD" ++ "=" := by decide
  have command : " docker compose -f relay/docker-compose.yaml up -d --build" =
      " " ++ "docker compose -f relay/docker-compose.yaml up -d --build" := by decide
  have log : "docker compose -f relay/docker-compose.yaml up -d --build >>" =
      "docker compose -f relay/docker-compose.yaml up -d --build" ++ " >>" := by decide
  unfold relayDeploy relayDeployCmd deployAssignments composeCommand
  rw [Script.render, host, device, baud, command, log]
  simp only [Assignments.render]
  rw [single_sshUrl, render_single]
  simp only [Value.render, String.append_assoc, -String.reduceAppend]

/-! ## Docker -/

/-- A running container. -/
structure Container where
  id : String
  name : String
  hex : id ≠ "" ∧ id.toList.all Char.isAlphanum = true

/-- What a daemon runs, or none where it cannot be reached. -/
abbrev Daemon := Option (List Container)

/-- The filter matches a part of the name. -/
def Container.hasName (filter : String) (c : Container) : Bool :=
  decide (filter.toList <:+: c.name.toList)

/-- `docker ps -q --filter name=…`: the ids, each on a line. -/
def Daemon.ps (filter : String) : Daemon → String × Nat
  | none => ("", 1)
  | some running => (String.join ((running.filter (·.hasName filter)).map (·.id ++ "\n")), 0)

/-- The daemons and the programs around the TUI's shell. -/
structure Host where
  around : Surroundings
  localDaemon : Daemon
  remote : String → Daemon
  other : Environment → List String → String × Nat

def Host.contacted (host : Host) (env : Environment) : Daemon :=
  match env "DOCKER_HOST" with
  | none => host.localDaemon
  | some url => if url = "" then host.localDaemon else host.remote url

def Host.docker (host : Host) (env : Environment) (args : List String) : String × Nat :=
  match args with
  | ["docker", "ps", "-q", "--filter", "name=lexaire-relay"] =>
    Daemon.ps "lexaire-relay" (host.contacted env)
  | _ => host.other env args

def Host.system (host : Host) : System := { around := host.around, programs := host.docker }

/-! ## What the probe finds -/

/-- What a daemon says about the relay. -/
def Daemon.relayState : Daemon → ServiceState
  | none => .unknown
  | some running => if running.any (·.hasName "lexaire-relay") then .up else .down

/-- The state that the check stores, for a TUI started in the environment `env`. -/
def relayProbe (host : Host) (env : Environment) (ctx : AppContext) : ServiceState :=
  exitToState ((relayCheck ctx.droneHost).exitCode host.system env)

section
variable {host : Host} {env : Environment} {system : System} {name text : String}

def psCommand (filterArgs : String) : String := "docker ps -q " ++ filterArgs ++ " 2>>" ++ tuiLogPath

/-- The environment that the substitution runs in. -/
def probeEnvironment (env : Environment) (name text : String) : Environment :=
  if (env name).isSome then Function.update env name (some text) else env

/-- The assignment stands on a line without a command. -/
theorem assigned_environment (system : System) (env : Environment) (name text : String) :
    ((Execution.ofEnvironment env).assignOne system (name, .single text)).environment =
      probeEnvironment env name text := by
  change ((Execution.ofEnvironment env).assign name text).environment = _
  rw [environment_assign, environment_ofEnvironment]
  rfl

/-- The two lines before the branch keep what the command wrote and how it exited. -/
theorem run_assignments (system : System) (env : Environment) (name text command : String) :
    ∃ x : Execution,
      (Script.seq (.assign [(name, .single text), ("out", .output command)])
        (.assign [("rc", .status)])).run system (.ofEnvironment env) = .goesOn x ∧
      x.value "out" =
        some (substituted (system.execute (probeEnvironment env name text) command).1) ∧
      x.value "rc" =
        some (toString (system.execute (probeEnvironment env name text) command).2) := by
  let x := (Execution.ofEnvironment env).assignOne system (name, .single text)
  let result := system.execute x.environment command
  have line : (Execution.ofEnvironment env).assignAll system
      [(name, .single text), ("out", .output command)] =
        { x.assign "out" (substituted result.1) with status := result.2 } := rfl
  rw [← assigned_environment system]
  refine ⟨{ (x.assign "out" (substituted result.1)).assign "rc" (toString result.2) with status := 0 },
    ?_, ?_, ?_⟩
  · rw [Script.run, Script.run, line]
    rfl
  · rfl
  · rfl

theorem run_branches {x : Execution} {out : String} {code : Nat} (kept : x.value "out" = some out)
    (exited : x.value "rc" = some (toString code)) :
    (Script.cond (.notEqual (.variable "rc") 0) (.exit 2)
      (.cond (.isEmpty (.variable "out")) (.exit 1) (.exit 0))).run system x =
        .exited (if code ≠ 0 then 2 else if out = "" then 1 else 0) := by
  have failed : (Test.notEqual (.variable "rc") 0).holds system x = decide (code ≠ 0) := by
    simp [Test.holds, Value.expand, exited, integer?_toDigits]
  have empty : (Test.isEmpty (.variable "out")).holds system { x with status := 1 } =
      decide (out = "") := by
    simp [Test.holds, Value.expand, kept]
  simp only [Script.run, failed, empty, decide_eq_true_eq]
  split
  · rfl
  · split <;> rfl

theorem exitCode_psQuery (filterArgs : String) :
    (psQuery (name, .single text) filterArgs).exitCode system env =
      (let result := system.execute (probeEnvironment env name text) (psCommand filterArgs)
       if result.2 ≠ 0 then 2 else if substituted result.1 = "" then 1 else 0) := by
  obtain ⟨x, lines, kept, exited⟩ :=
    run_assignments system env name text (psCommand filterArgs)
  have run := (run_seq lines).trans (run_branches kept exited)
  exact congrArg Outcome.exitCode run

theorem execute_probe : host.system.execute env (psCommand "--filter name=lexaire-relay") =
    Daemon.ps "lexaire-relay" (host.contacted env) := by
  have read : parse (psCommand "--filter name=lexaire-relay") = some
      { words := ["docker", "ps", "-q", "--filter", "name=lexaire-relay"].map (bare ·.toList)
        redirections := [⟨['2'], ">>", bare tuiLogPath.toList⟩] } := by
    decide +kernel
  have closed : ∀ s ∈ ["docker", "ps", "-q", "--filter", "name=lexaire-relay"],
      (bare s.toList).isOpen = false := by
    decide +kernel
  rw [System.execute, read]
  simp only [Command.arguments, flatMap_fields_bare closed]
  rfl

/-- The ids are on the output unless no container was listed. -/
theorem substituted_ids (running : List Container) :
    substituted (String.join (running.map (·.id ++ "\n"))) = "" ↔ running = [] := by
  rw [substituted_eq_empty]
  constructor
  · intro ends
    cases running with
    | nil => rfl
    | cons c running =>
      obtain ⟨some, letters⟩ := c.hex
      obtain ⟨first, member⟩ := List.exists_mem_of_ne_nil _ (mt String.toList_eq_nil_iff.mp some)
      have newline : first = '\n' := by
        apply ends
        simp [member]
      rw [newline] at member
      exact absurd (List.all_eq_true.mp letters '\n' member) (by decide)
  · rintro rfl c member
    cases member

theorem exitToState_ps (d : Daemon) :
    exitToState (if (Daemon.ps "lexaire-relay" d).2 ≠ 0 then 2
      else if substituted (Daemon.ps "lexaire-relay" d).1 = "" then 1 else 0 : Nat) =
        d.relayState := by
  cases d with
  | none => rfl
  | some running =>
    have listed : substituted (Daemon.ps "lexaire-relay" (some running)).1 = "" ↔
        ¬ running.any (·.hasName "lexaire-relay") := by
      rw [Daemon.ps, substituted_ids, List.filter_eq_nil_iff]
      simp
    simp only [listed, Daemon.relayState]
    cases running.any (·.hasName "lexaire-relay") <;> rfl

theorem contacted_probe (droneHost : String) :
    host.contacted (probeEnvironment env "DOCKER_HOST" (sshUrl droneHost)) =
      if (env "DOCKER_HOST").isSome then host.remote (sshUrl droneHost) else host.localDaemon := by
  unfold probeEnvironment
  split
  · have address : sshUrl droneHost ≠ "" := by simp [sshUrl]
    simp [Host.contacted, address]
  · next plain =>
    rw [Host.contacted, Option.not_isSome_iff_eq_none.mp plain]

/-- The check finds out about the Pi only where `DOCKER_HOST` was exported to the TUI. -/
theorem relayProbe_eq (host : Host) (env : Environment) (ctx : AppContext) :
    relayProbe host env ctx =
      if (env "DOCKER_HOST").isSome then (host.remote (sshUrl ctx.droneHost)).relayState
      else host.localDaemon.relayState := by
  rw [relayProbe, relayCheck, exitCode_psQuery, execute_probe, contacted_probe]
  simp only [exitToState_ps]
  split <;> rfl

/-- The handler of the check starts a deploy unless the probe found the relay up. -/
theorem complete_relayCheck (host : Host) (env : Environment) (ctx : AppContext) (output : String) :
    complete ctx ((relayCheck ctx.droneHost).exitCode host.system env) output .relayCheck =
      if relayProbe host env ctx = .up then { ctx with relayState := .up }
      else ({ ctx with relayState := .deploying } : AppContext).spawn (.startupDeploy .relay) := by
  have stored : checked ctx .relay ((relayCheck ctx.droneHost).exitCode host.system env) =
      if relayProbe host env ctx = .up then { ctx with relayState := relayProbe host env ctx }
      else ({ ctx with relayState := .deploying } : AppContext).spawn (.startupDeploy .relay) := rfl
  rw [complete, stored]
  split
  · next up => rw [up]
  · rfl

end

theorem relay_probe_iff (env : Environment) (ctx : AppContext) :
    (∀ host : Host, relayProbe host env ctx = (host.remote (sshUrl ctx.droneHost)).relayState) ↔
      (env "DOCKER_HOST").isSome := by
  constructor
  · intro asks
    let host : Host :=
      { around := unmatched, localDaemon := some [], remote := fun _ => none, other := fun _ _ => ("", 0) }
    by_contra plain
    have probed := (relayProbe_eq host env ctx).symm.trans (asks host)
    rw [if_neg plain] at probed
    cases probed
  · intro exported host
    rw [relayProbe_eq, if_pos exported]

/-- The Pi cannot be reached, and the check answers for the ground station's own daemon. -/
theorem local_daemon_answers :
    let ctx : AppContext := { droneHost := "pi@drone", publisherRepo := "" }
    let relay : Container := { id := "0123456789ab", name := "lexaire-relay", hex := by decide }
    let host (localDaemon : Daemon) : Host :=
      { around := unmatched, localDaemon, remote := fun _ => none, other := fun _ _ => ("", 0) }
    relayProbe (host (some [relay])) (fun _ => none) ctx = .up ∧
      relayProbe (host (some [])) (fun _ => none) ctx = .down ∧
      ∀ d, ((host d).remote (sshUrl ctx.droneHost)).relayState = .unknown := by
  intro ctx relay host
  refine ⟨?_, ?_, fun _ => rfl⟩
  · rw [relayProbe_eq]
    decide +kernel
  · rw [relayProbe_eq]
    rfl

/-- In front of a command the same assignment does reach `docker`. -/
theorem relayDeploy_contacts (host : Host) (env : Environment) (droneHost serialDevice : String)
    (serialBaud : Int) : ∃ deploys : Environment,
      host.contacted deploys = host.remote (sshUrl droneHost) ∧
      (relayDeploy droneHost serialDevice serialBaud).exitCode host.system env =
        (host.system.execute deploys composeCommand).2 := by
  refine ⟨_, ?_, exitCode_program⟩
  have sees : (Execution.ofEnvironment env).prefixed host.system
      (deployAssignments droneHost serialDevice serialBaud) "DOCKER_HOST" =
        some (sshUrl droneHost) := by
    simp [deployAssignments, Execution.prefixed, Execution.assignOne, Execution.assign,
      Execution.markExported, Execution.environment, Value.expand]
  have address : sshUrl droneHost ≠ "" := by simp [sshUrl]
  simp [Host.contacted, sees, address]

end Lexaire.Tui
