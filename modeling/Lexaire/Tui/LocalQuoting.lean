import Lexaire.Core.ShellProcess
import Lexaire.Tui.RelayProbe

/-! What the shell of the ground station makes of the texts that the TUI gives it: a value between
single quotes is read as itself, and each command is one process with the configured values. -/
namespace Lexaire.Tui
open Shell

def publisherCheckCmd (ctx : AppContext) : String :=
  "ssh -o BatchMode=yes -o ConnectTimeout=5 " ++
    "'" ++ shellSquote ctx.droneHost ++ "'" ++
    " 'bash -s'" ++
    " < " ++ piSetupDir ++ "/check-publisher.sh" ++
    " >>" ++ tuiLogPath ++ " 2>&1"

def logRedirections : List Redirection :=
  [⟨[], ">>", bare tuiLogPath.toList⟩, ⟨['2'], ">&", bare ['1']⟩]

def checkRedirections : List Redirection :=
  ⟨[], "<", bare (piSetupDir ++ "/check-publisher.sh").toList⟩ :: logRedirections

def composeArguments : List String :=
  ["docker", "compose", "-f", "relay/docker-compose.yaml", "up", "-d", "--build"]

/-! ## A quoted value -/

theorem toList_quoted (s : String) :
    ("'" ++ shellSquote s ++ "'").toList = '\'' :: s.toList.flatMap escape ++ ['\''] := by
  rw [String.toList_append, String.toList_append, toList_shellSquote]
  rfl

theorem readsAs_shellSquote (s : String) :
    ReadsAs ("'" ++ shellSquote s ++ "'").toList (quoted s.toList) := by
  rw [toList_quoted]
  exact readsAs_quoted s.toList

/-! ## The relay -/

section
variable {w : Word}

theorem scan_space : scan (.plain (.word w)) " ".toList = some ([.word w], .plain .gap) := rfl

theorem scan_docker_host : scan (.plain .gap) "DOCKER_HOST=".toList =
    some ([], .plain (.word (bare "DOCKER_HOST=".toList))) :=
  scan_bare (by decide +kernel)

theorem scan_serial_device : scan (.plain (.word w)) " SERIAL_DEVICE=".toList =
    some ([.word w], .plain (.word (bare "SERIAL_DEVICE=".toList))) := rfl

theorem scan_serial_baud : scan (.plain (.word w)) " SERIAL_BAUD=".toList =
    some ([.word w], .plain (.word (bare "SERIAL_BAUD=".toList))) := rfl

theorem tokens_compose : tokens (.plain .gap) composeCommand.toList =
    some (composeArguments.map (.word <| bare ·.toList) ++
      logRedirections.flatMap Redirection.tokens) := by
  decide +kernel

/-- The words of the command, with the assignments before it. -/
def deployWords (droneHost serialDevice : String) (serialBaud : Int) : List Word :=
  [bare "DOCKER_HOST=".toList ++ quoted (sshUrl droneHost).toList,
    bare "SERIAL_DEVICE=".toList ++ quoted serialDevice.toList,
    bare "SERIAL_BAUD=".toList ++ bare (toString serialBaud).toList] ++
    composeArguments.map (bare ·.toList)

theorem parse_relayDeployCmd (ctx : AppContext) (serialDevice : String) (serialBaud : Int) :
    parse (relayDeployCmd ctx serialDevice serialBaud) = some
      { words := deployWords ctx.droneHost serialDevice serialBaud
        redirections := logRedirections } := by
  have text : (relayDeployCmd ctx serialDevice serialBaud).toList =
      "DOCKER_HOST=".toList ++ (("'" ++ shellSquote (sshUrl ctx.droneHost) ++ "'").toList ++
        (" SERIAL_DEVICE=".toList ++ (("'" ++ shellSquote serialDevice ++ "'").toList ++
          (" SERIAL_BAUD=".toList ++ ((toString serialBaud).toList ++
            (" ".toList ++ composeCommand.toList)))))) := by
    have host : "DOCKER_HOST=".toList = "DOCKER_HOST".toList ++ "=".toList := rfl
    have device : " SERIAL_DEVICE=".toList = " ".toList ++ ("SERIAL_DEVICE".toList ++ "=".toList) := rfl
    have baud : " SERIAL_BAUD=".toList = " ".toList ++ ("SERIAL_BAUD".toList ++ "=".toList) := rfl
    rw [← render_relayDeploy, host, device, baud, ← render_single, ← render_single]
    simp only [relayDeploy, deployAssignments, Script.render, Assignments.render, String.toList_append,
      List.append_assoc]
    rfl
  have baud : scan (.plain (.word (bare "SERIAL_BAUD=".toList))) (toString serialBaud).toList =
      some ([], .plain (.word (bare "SERIAL_BAUD=".toList ++ bare (toString serialBaud).toList))) :=
    scan_word fun c member => ordinary_toString_int member
  rw [parse, text, (readsAs_shellSquote _).part _ scan_docker_host,
    (readsAs_shellSquote _).part _ scan_serial_device, tokens_append scan_serial_baud,
    tokens_append baud, tokens_append scan_space, tokens_compose]
  exact command_words (deployWords ctx.droneHost serialDevice serialBaud) logRedirections

theorem leading_deployWords {home : Word → String} (droneHost serialDevice : String)
    (serialBaud : Int) :
    leading home (deployWords droneHost serialDevice serialBaud) =
      ([("DOCKER_HOST", .literal (sshUrl droneHost)), ("SERIAL_DEVICE", .literal serialDevice),
        ("SERIAL_BAUD", .literal (toString serialBaud))], composeArguments.map (bare ·.toList)) := by
  have host := @leading_assignment home "DOCKER_HOST".toList rfl
  have device := @leading_assignment home "SERIAL_DEVICE".toList rfl
  have baud := @leading_assignment home "SERIAL_BAUD".toList rfl
  have words : deployWords droneHost serialDevice serialBaud =
      (bare "DOCKER_HOST".toList ++ ⟨'=', false⟩ :: quoted (sshUrl droneHost).toList) ::
        (bare "SERIAL_DEVICE".toList ++ ⟨'=', false⟩ :: quoted serialDevice.toList) ::
          (bare "SERIAL_BAUD".toList ++ ⟨'=', false⟩ :: bare (toString serialBaud).toList) ::
            composeArguments.map (bare ·.toList) := rfl
  have compose : leading home (composeArguments.map (bare ·.toList)) =
      ([], composeArguments.map (bare ·.toList)) := leading_word (by decide +kernel) _
  rw [words, host, device, baud, compose]
  simp only [assigned_quoted, assigned_int, String.ofList_toList]

theorem process?_relayDeployCmd (system : System) (home : Word → String) (env : Environment)
    (ctx : AppContext) (serialDevice : String) (serialBaud : Int) :
    system.process? home env (relayDeployCmd ctx serialDevice serialBaud) = some
      { arguments := composeArguments
        environment := (Execution.ofEnvironment env).prefixed system
          (deployAssignments ctx.droneHost serialDevice serialBaud)
        redirections := logRedirections } := by
  have closed : ∀ s ∈ composeArguments, (bare s.toList).isOpen = false := by decide +kernel
  rw [System.process?, parse_relayDeployCmd, Option.bind_some, leading_deployWords]
  simp only [flatMap_fields_bare closed]
  rfl

/-! ## The publisher -/

/-- The words before the host. -/
def checkWords : List Word :=
  ["ssh", "-o", "BatchMode=yes", "-o", "ConnectTimeout=5"].map (bare ·.toList)

theorem scan_check : scan (.plain .gap) "ssh -o BatchMode=yes -o ConnectTimeout=5 ".toList =
    some (checkWords.map .word, .plain .gap) := by
  decide +kernel

theorem tokens_check : tokens (.plain .gap) ("'bash -s'" ++ " < " ++ piSetupDir ++
    "/check-publisher.sh" ++ " >>" ++ tuiLogPath ++ " 2>&1").toList =
      some ([.word (quoted "bash -s".toList)] ++ checkRedirections.flatMap Redirection.tokens) := by
  decide +kernel

theorem parse_publisherCheckCmd (ctx : AppContext) : parse (publisherCheckCmd ctx) = some
    { words := checkWords ++ [quoted ctx.droneHost.toList, quoted "bash -s".toList]
      redirections := checkRedirections } := by
  have text : (publisherCheckCmd ctx).toList = "ssh -o BatchMode=yes -o ConnectTimeout=5 ".toList ++
      (("'" ++ shellSquote ctx.droneHost ++ "'").toList ++ (" ".toList ++ ("'bash -s'" ++ " < " ++
        piSetupDir ++ "/check-publisher.sh" ++ " >>" ++ tuiLogPath ++ " 2>&1").toList)) := by
    have apart : " 'bash -s'".toList = " ".toList ++ "'bash -s'".toList := rfl
    unfold publisherCheckCmd
    simp only [String.toList_append, List.append_assoc, apart, -String.reduceAppend]
  have ends (rest : List Char) : ∀ c ∈ (" ".toList ++ rest).head?, endsWord c = true := by
    rintro c ⟨⟩
    rfl
  have blank : scan (.plain .gap) " ".toList = some ([], .plain .gap) := rfl
  rw [parse, text, (readsAs_shellSquote _).whole scan_check rfl (ends _), tokens_append blank,
    tokens_check]
  exact command_words (checkWords ++ [quoted ctx.droneHost.toList, quoted "bash -s".toList])
    checkRedirections

theorem process?_publisherCheckCmd (system : System) (home : Word → String) (env : Environment)
    (ctx : AppContext) : system.process? home env (publisherCheckCmd ctx) = some
      { arguments := ["ssh", "-o", "BatchMode=yes", "-o", "ConnectTimeout=5", ctx.droneHost, "bash -s"]
        environment := env
        redirections := checkRedirections } := by
  have closed : ∀ s ∈ ["ssh", "-o", "BatchMode=yes", "-o", "ConnectTimeout=5"],
      (bare s.toList).isOpen = false := by
    decide +kernel
  have words : leading home (checkWords ++ [quoted ctx.droneHost.toList, quoted "bash -s".toList]) =
      ([], checkWords ++ [quoted ctx.droneHost.toList, quoted "bash -s".toList]) :=
    leading_word (by decide +kernel) _
  have arguments : (checkWords ++ [quoted ctx.droneHost.toList, quoted "bash -s".toList]).flatMap
      (Word.fields system.around) =
        ["ssh", "-o", "BatchMode=yes", "-o", "ConnectTimeout=5", ctx.droneHost, "bash -s"] := by
    rw [List.flatMap_append, checkWords, flatMap_fields_bare closed, List.flatMap_cons, fields_quoted,
      List.flatMap_cons, fields_quoted]
    rfl
  have plain : (Execution.ofEnvironment env).prefixed system [] = env := environment_ofEnvironment env
  rw [System.process?, parse_publisherCheckCmd, Option.bind_some, words]
  simp only [arguments, plain]
  rfl

end

/-- Between its quotes a value is one word, in every text whose other parts leave nothing to
an expansion; the deploy of the relay is one `docker compose`, and the check of the publisher
one `ssh`, with the configured values. -/
theorem local_quoting_exact :
    (∀ s : String, ReadsAs ("'" ++ shellSquote s ++ "'").toList (quoted s.toList) ∧
      ∀ around, Word.fields around (quoted s.toList) = [s]) ∧
    ∀ (system : System) (home : Word → String) (env : Environment) (ctx : AppContext),
      (∀ (serialDevice : String) (serialBaud : Int), ∃ deploys : Environment,
        system.process? home env (relayDeployCmd ctx serialDevice serialBaud) =
          some ⟨composeArguments, deploys, logRedirections⟩ ∧
        deploys "DOCKER_HOST" = some ("ssh://" ++ ctx.droneHost) ∧
        deploys "SERIAL_DEVICE" = some serialDevice ∧
        deploys "SERIAL_BAUD" = some (toString serialBaud)) ∧
      system.process? home env (publisherCheckCmd ctx) =
        some ⟨["ssh", "-o", "BatchMode=yes", "-o", "ConnectTimeout=5", ctx.droneHost, "bash -s"], env,
          checkRedirections⟩ := by
  refine ⟨fun s => ⟨readsAs_shellSquote s, fields_quoted s⟩, fun system home env ctx => ⟨?_, ?_⟩⟩
  · intro serialDevice serialBaud
    refine ⟨_, process?_relayDeployCmd system home env ctx serialDevice serialBaud, ?_⟩
    simp [deployAssignments, Execution.prefixed, Execution.assignOne, Execution.assign,
      Execution.markExported, Execution.environment, Value.expand, sshUrl]
  · exact process?_publisherCheckCmd system home env ctx

end Lexaire.Tui
