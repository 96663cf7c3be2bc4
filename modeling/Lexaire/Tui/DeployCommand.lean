import Lexaire.Core.Shell
import Lexaire.Tui.Menu

/-! The command that deploys the publisher: its text is read by the shell of the ground
station, and the last argument it gives to ssh is read again by the Pi's login shell. -/
namespace Lexaire.Tui
open Shell

def tuiLogPath : String := "/tmp/lexaire-tui.log"

def piSetupDir : String := "/workspace/pi-setup"

/-- A quote inside a single-quoted text closes it, stands escaped and opens it again. -/
def shellSquote (s : String) : String :=
  String.ofList (s.toList.flatMap fun c => if c = '\'' then ['\'', '\\', '\'', '\''] else [c])

def publisherDeployCmd (ctx : AppContext) : String :=
  "ssh -o BatchMode=yes -o StrictHostKeyChecking=accept-new " ++
    "'" ++ shellSquote ctx.droneHost ++ "'" ++
    " 'bash -s -- " ++ shellSquote ctx.publisherRepo ++ "'" ++
    " < " ++ piSetupDir ++ "/deploy-publisher.sh" ++
    " >>" ++ tuiLogPath ++ " 2>&1"

/-- The script as the input, and the log for the output. -/
def deployRedirections : List Redirection :=
  [⟨[], "<", bare (piSetupDir ++ "/deploy-publisher.sh").toList⟩,
    ⟨[], ">>", bare tuiLogPath.toList⟩, ⟨['2'], ">&", bare ['1']⟩]

/-- The command is one `ssh` with the script as its input, and what it sends to the Pi is
one `bash` whose only positional parameter is the configured repository. -/
def Delivers (gcs pi : Surroundings) (ctx : AppContext) : Prop :=
  ∃ sent remote received,
    parse (publisherDeployCmd ctx) = some sent ∧
    sent.arguments gcs = ["ssh", "-o", "BatchMode=yes", "-o", "StrictHostKeyChecking=accept-new",
      ctx.droneHost, remote] ∧
    sent.redirections = deployRedirections ∧
    parse remote = some received ∧
    received.arguments pi = ["bash", "-s", "--", ctx.publisherRepo] ∧
    received.redirections = []

/-- A repository that a POSIX shell reads, without quotes, as itself. What bash has beyond that,
braces and a tilde behind `=` or `:`, is not looked at. -/
def ReadsAsItself (repo : String) : Prop :=
  IsBare repo.toList ∧ Word.isOpen (bare repo.toList) = false

instance : DecidablePred ReadsAsItself := fun repo =>
  inferInstanceAs (Decidable (IsBare repo.toList ∧ Word.isOpen (bare repo.toList) = false))

/-! ## On the ground station -/

def remoteText (repo : String) : String := "bash -s -- " ++ repo

/-- The words before the host. -/
def sshWords : List Word :=
  ["ssh", "-o", "BatchMode=yes", "-o", "StrictHostKeyChecking=accept-new"].map (bare ·.toList)

section
variable {ctx : AppContext} {w : Word}

theorem toList_shellSquote (s : String) : (shellSquote s).toList = s.toList.flatMap escape := by
  rw [shellSquote, String.toList_ofList]
  rfl

theorem scan_shellSquote (s : String) :
    scan (.single w) (shellSquote s).toList = some ([], .single (w ++ quoted s.toList)) := by
  rw [toList_shellSquote]
  exact scan_escaped s.toList

theorem scan_ssh :
    scan (.plain .gap) ("ssh -o BatchMode=yes -o StrictHostKeyChecking=accept-new " ++ "'").toList =
      some (sshWords.map .word, .single []) := by
  decide +kernel

theorem scan_host : scan (.single w) ("'" ++ " 'bash -s -- ").toList =
    some ([.word w], .single (quoted "bash -s -- ".toList)) := by
  rfl

theorem tokens_redirections : tokens (.plain .gap)
    ("< " ++ piSetupDir ++ "/deploy-publisher.sh" ++ " >>" ++ tuiLogPath ++ " 2>&1").toList =
      some (deployRedirections.flatMap Redirection.tokens) := by
  decide +kernel

theorem parse_publisherDeployCmd : parse (publisherDeployCmd ctx) = some
    { words := sshWords ++ [quoted ctx.droneHost.toList, quoted (remoteText ctx.publisherRepo).toList]
      redirections := deployRedirections } := by
  have text : (publisherDeployCmd ctx).toList =
      ("ssh -o BatchMode=yes -o StrictHostKeyChecking=accept-new " ++ "'").toList ++
        ((shellSquote ctx.droneHost).toList ++ (("'" ++ " 'bash -s -- ").toList ++
          ((shellSquote ctx.publisherRepo).toList ++ (("'" ++ " ").toList ++
            ("< " ++ piSetupDir ++ "/deploy-publisher.sh" ++ " >>" ++ tuiLogPath ++ " 2>&1").toList)))) := by
    have apart : " < ".toList = " ".toList ++ "< ".toList := by decide
    unfold publisherDeployCmd
    simp only [String.toList_append, List.append_assoc]
    rw [apart, List.append_assoc]
  have closed : scan (.single (quoted "bash -s -- ".toList ++ quoted ctx.publisherRepo.toList))
      ("'" ++ " ").toList =
        some ([.word (quoted (remoteText ctx.publisherRepo).toList)], .plain .gap) := by
    simp only [remoteText, String.toList_append, quoted, ← List.map_append]
    rfl
  rw [parse, text, tokens_append scan_ssh, tokens_append (scan_shellSquote _),
    tokens_append scan_host, tokens_append (scan_shellSquote _), tokens_append closed,
    tokens_redirections]
  exact command_words (sshWords ++ [quoted ctx.droneHost.toList,
    quoted (remoteText ctx.publisherRepo).toList]) deployRedirections

theorem arguments_sent (gcs : Surroundings) (droneHost remote : String) :
    (sshWords ++ [quoted droneHost.toList, quoted remote.toList]).flatMap (Word.fields gcs) =
      ["ssh", "-o", "BatchMode=yes", "-o", "StrictHostKeyChecking=accept-new", droneHost, remote] := by
  have closed : ∀ s ∈ ["ssh", "-o", "BatchMode=yes", "-o", "StrictHostKeyChecking=accept-new"],
      (bare s.toList).isOpen = false := by
    decide +kernel
  rw [List.flatMap_append, sshWords, flatMap_fields_bare closed]
  simp [fields_quoted]

/-! ## On the Pi -/

def bashWords : List Word := ["bash", "-s", "--"].map (bare ·.toList)

theorem scan_bash :
    scan (.plain .gap) "bash -s -- ".toList = some (bashWords.map .word, .plain .gap) := by
  decide +kernel

theorem arguments_bash (pi : Surroundings) :
    bashWords.flatMap (Word.fields pi) = ["bash", "-s", "--"] := by
  have closed : ∀ s ∈ ["bash", "-s", "--"], (bare s.toList).isOpen = false := by decide +kernel
  exact flatMap_fields_bare closed

theorem delivers_iff (gcs pi : Surroundings) : Delivers gcs pi ctx ↔
    ∃ ws : List Word, tokens (.plain .gap) ctx.publisherRepo.toList = some (ws.map .word) ∧
      ws.flatMap (Word.fields pi) = [ctx.publisherRepo] := by
  have split : tokens (.plain .gap) (remoteText ctx.publisherRepo).toList =
      (tokens (.plain .gap) ctx.publisherRepo.toList).map (bashWords.map .word ++ ·) := by
    rw [remoteText, String.toList_append, tokens_append scan_bash]
  constructor
  · rintro ⟨sent, remote, received, sends, arguments, -, receives, positional, direct⟩
    cases parse_publisherDeployCmd.symm.trans sends
    rw [Command.arguments, arguments_sent] at arguments
    obtain rfl : remoteText ctx.publisherRepo = remote := by simpa using arguments
    rw [parse, split, Option.bind_eq_bind, Option.bind_eq_some_iff] at receives
    obtain ⟨all, read, commanded⟩ := receives
    obtain ⟨ts, rest, rfl⟩ := Option.map_eq_some_iff.mp read
    obtain ⟨front, ws, words, lead, rfl⟩ := List.map_eq_append_iff.mp
      (tokens_of_command commanded direct).symm
    obtain rfl : front = bashWords := by
      apply List.map_injective_iff.mpr _ lead
      exact fun a b same => Token.word.inj same
    rw [Command.arguments, words, List.flatMap_append, arguments_bash] at positional
    exact ⟨ws, rest, by simpa using positional⟩
  · rintro ⟨ws, rest, positional⟩
    refine ⟨_, remoteText ctx.publisherRepo, { words := bashWords ++ ws }, parse_publisherDeployCmd,
      arguments_sent gcs _ _, rfl, ?_, ?_, rfl⟩
    · rw [parse, split, rest, Option.map_some, ← List.map_append]
      simpa using command_words (bashWords ++ ws) []
    · rw [Command.arguments, List.flatMap_append, arguments_bash, positional]
      rfl

/-- Without quotes the Pi's shell reads the repository as itself or not at all. -/
theorem readsAsItself_of_delivers (delivers : ∀ gcs pi, Delivers gcs pi ctx) :
    ReadsAsItself ctx.publisherRepo := by
  obtain ⟨ws, read, fields⟩ := (delivers_iff unmatched unmatched).mp (delivers unmatched unmatched)
  rw [funext fields_unmatched, ← List.map_eq_flatMap] at fields
  obtain ⟨w, rfl, text⟩ := List.map_eq_singleton_iff.mp fields
  have same : ctx.publisherRepo.toList = w.text := by rw [← text, String.toList_ofList]
  have bare : IsBare ctx.publisherRepo.toList := by
    apply bare_of_tokens read
    · intro empty
      rw [empty] at read
      cases read
    · rw [same]
      simp [Shell.size, Token.size, Word.text]
  refine ⟨bare, Bool.eq_false_iff.mpr fun isOpen => ?_⟩
  let other : Surroundings := fun _ => [ctx.publisherRepo ++ "x"]
  obtain ⟨ws, read', fields'⟩ := (delivers_iff other other).mp (delivers other other)
  rw [tokens_bare bare] at read'
  obtain ⟨w', rfl, word⟩ := List.map_eq_singleton_iff.mp (Option.some.inj read').symm
  obtain rfl := Token.word.inj word
  rw [List.flatMap_singleton, fields_open isOpen] at fields'
  have longer := congrArg (List.map String.length) fields'
  simp [other] at longer

theorem publisher_repo_delivered_iff (ctx : AppContext) :
    (∀ gcs pi, Delivers gcs pi ctx) ↔ ReadsAsItself ctx.publisherRepo := by
  constructor
  · exact readsAsItself_of_delivers
  · rintro ⟨isBare, closed⟩ gcs pi
    refine (delivers_iff gcs pi).mpr ⟨[bare ctx.publisherRepo.toList], tokens_bare isBare, ?_⟩
    rw [List.flatMap_singleton, fields_bare closed]

example : ReadsAsItself "https://github.com/9LogM/RS-L515-Docker" := by decide +kernel

end

/-- The quotes hold on the ground station only: a `;` ends the command on the Pi. -/
theorem second_command_on_pi :
    let ctx : AppContext :=
      { droneHost := "pi@drone", publisherRepo := "https://github.com/9LogM/RS-L515-Docker;reboot" }
    (∀ gcs pi, ¬ Delivers gcs pi ctx) ∧
      tokens (.plain .gap) (remoteText ctx.publisherRepo).toList = some
        ((["bash", "-s", "--", "https://github.com/9LogM/RS-L515-Docker"].map (.word <| bare ·.toList)) ++
          [.control ';', .word (bare "reboot".toList)]) := by
  intro ctx
  have commands : tokens (.plain .gap) (remoteText ctx.publisherRepo).toList = some
      ((["bash", "-s", "--", "https://github.com/9LogM/RS-L515-Docker"].map (.word <| bare ·.toList)) ++
        [.control ';', .word (bare "reboot".toList)]) := by
    decide +kernel
  refine ⟨?_, commands⟩
  rintro gcs pi delivers
  obtain ⟨ws, read, -⟩ := (delivers_iff gcs pi).mp delivers
  have two : tokens (.plain .gap) ctx.publisherRepo.toList = some
      [.word (bare "https://github.com/9LogM/RS-L515-Docker".toList), .control ';',
        .word (bare "reboot".toList)] := by
    decide +kernel
  have words := Option.some.inj (read.symm.trans two)
  have member : Token.control ';' ∈ ws.map Token.word := by simp [words]
  simp at member

end Lexaire.Tui
