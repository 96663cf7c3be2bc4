import Lexaire.Core.Shell
import Mathlib.Data.List.DropRight
import Mathlib.Logic.Function.Basic

/-! What a shell does with a script: variables and which of them programs see, assignments
with and without a command, command substitution, tests and branches. A redirection is
taken to succeed. -/
namespace Shell

abbrev Environment := String → Option String

/-- What is around a shell: the paths, and what each program writes and exits with. -/
structure System where
  around : Surroundings
  programs : Environment → List String → String × Nat

/-- The shell execution environment. -/
structure Execution where
  value : String → Option String
  exported : String → Bool
  status : Nat

namespace Execution

def ofEnvironment (env : Environment) : Execution :=
  { value := env, exported := fun name => (env name).isSome, status := 0 }

/-- What the programs that the shell starts see. -/
def environment (x : Execution) : Environment := fun name =>
  if x.exported name then x.value name else none

/-- An assignment exports nothing of its own. -/
def assign (x : Execution) (name text : String) : Execution :=
  { x with value := Function.update x.value name (some text) }

end Execution

/-! ## Scripts -/

/-- A value of one field. -/
inductive Value where
  | literal (text : String)
  | single (text : String)
  | output (command : String)
  | status
  | variable (name : String)

inductive Test where
  | notEqual (v : Value) (n : Int)
  | isEmpty (v : Value)

abbrev Assignments := List (String × Value)

inductive Script where
  | assign (assignments : Assignments)
  | program (assignments : Assignments) (command : String)
  | exit (n : Nat)
  | seq (first second : Script)
  | cond (test : Test) (yes no : Script)

def Value.render : Value → String
  | .literal text => text
  | .single text => "'" ++ String.ofList (text.toList.flatMap escape) ++ "'"
  | .output command => "$(" ++ command ++ ")"
  | .status => "$?"
  | .variable name => "\"$" ++ name ++ "\""

def Test.render : Test → String
  | .notEqual v n => "[ " ++ v.render ++ " -ne " ++ toString n ++ " ]"
  | .isEmpty v => "[ -z " ++ v.render ++ " ]"

def Assignments.render : Assignments → String
  | [] => ""
  | [(name, v)] => name ++ "=" ++ v.render
  | (name, v) :: rest => name ++ "=" ++ v.render ++ " " ++ Assignments.render rest

mutual

def Script.render : Script → String
  | .assign assignments => assignments.render
  | .program assignments command => assignments.render ++ " " ++ command
  | .exit n => "exit " ++ toString n
  | .seq first second => first.render ++ " ; " ++ second.render
  | .cond test yes no => "if " ++ test.render ++ "; then " ++ yes.render ++ no.renderElse

/-- What follows the commands of a branch. -/
def Script.renderElse : Script → String
  | .cond test yes no => " ; elif " ++ test.render ++ "; then " ++ yes.render ++ no.renderElse
  | .assign assignments => " ; else " ++ assignments.render ++ " ; fi"
  | .program assignments command => " ; else " ++ assignments.render ++ " " ++ command ++ " ; fi"
  | .exit n => " ; else exit " ++ toString n ++ " ; fi"
  | .seq first second => " ; else " ++ first.render ++ " ; " ++ second.render ++ " ; fi"

end

/-! ## Running them -/

/-- The output of the command goes elsewhere. -/
def Redirection.takesOutput (r : Redirection) : Bool :=
  (r.fd = [] || r.fd = ['1']) && (r.op = ">" || r.op = ">>" || r.op = ">&" || r.op = ">|")

def System.execute (system : System) (env : Environment) (command : String) : String × Nat :=
  match parse command with
  | none => ("", 2)
  | some c =>
    let (written, code) := system.programs env (c.arguments system.around)
    (if c.redirections.any Redirection.takesOutput then "" else written, code)

/-- Command substitution drops the line ends at the end. -/
def substituted (output : String) : String :=
  String.ofList (output.toList.rdropWhile (· = '\n'))

/-- The text of a value, and the status of the command that was run for it. -/
def Value.expand (system : System) (x : Execution) : Value → String × Option Nat
  | .literal text | .single text => (text, none)
  | .output command =>
    let (written, code) := system.execute x.environment command
    (substituted written, some code)
  | .status => (toString x.status, none)
  | .variable name => ((x.value name).getD "", none)

def natural? (t : List Char) : Option Nat :=
  if t ≠ [] ∧ t.all Char.isDigit = true then some (Nat.ofDigitChars 10 t 0) else none

def integer? : List Char → Option Int
  | '-' :: t => (natural? t).map fun n => -(n : Int)
  | t => (natural? t).map fun n => (n : Int)

/-- No test of what is not an integer holds. -/
def Test.holds (system : System) (x : Execution) : Test → Bool
  | .notEqual v n =>
    match integer? (v.expand system x).1.toList with
    | some k => k ≠ n
    | none => false
  | .isEmpty v => (v.expand system x).1 = ""

/-- A later assignment of a line sees the earlier ones. -/
def Execution.assignOne (system : System) (x : Execution) (a : String × Value) : Execution :=
  let (text, code) := a.2.expand system x
  { x.assign a.1 text with status := code.getD x.status }

def Value.isOutput : Value → Bool
  | .output _ => true
  | _ => false

/-- Assignments with no command have the status of the last substitution in them. -/
def Execution.assignAll (system : System) (x : Execution) (assignments : Assignments) : Execution :=
  let x' := assignments.foldl (Execution.assignOne system) x
  if assignments.any (·.2.isOutput) then x' else { x' with status := 0 }

def Execution.markExported (x : Execution) (name : String) : Execution :=
  { x with exported := Function.update x.exported name true }

/-- Assignments before a command are for its environment alone. -/
def Execution.prefixed (system : System) (x : Execution) (assignments : Assignments) : Environment :=
  (assignments.foldl (fun x a => (x.assignOne system a).markExported a.1) x).environment

inductive Outcome where
  | goesOn (x : Execution)
  | exited (n : Nat)

def Script.run (system : System) : Script → Execution → Outcome
  | .assign assignments, x => .goesOn (x.assignAll system assignments)
  | .program assignments command, x =>
    .goesOn { x with status := (system.execute (x.prefixed system assignments) command).2 }
  | .exit n, _ => .exited n
  | .seq first second, x =>
    match first.run system x with
    | .goesOn x => second.run system x
    | .exited n => .exited n
  | .cond test yes no, x =>
    if test.holds system x then yes.run system { x with status := 0 }
    else no.run system { x with status := 1 }

/-- How the shell itself exits. -/
def Outcome.exitCode : Outcome → Nat
  | .goesOn x => x.status
  | .exited n => n

def Script.exitCode (system : System) (env : Environment) (script : Script) : Nat :=
  (script.run system (.ofEnvironment env)).exitCode

/-! ## Rules -/

section
variable {system : System} {x : Execution} {name name' text : String}

theorem toDigits_isDigit (n : Nat) : ∀ c ∈ Nat.toDigits 10 n, c.isDigit = true :=
  fun _ member => Nat.isDigit_of_mem_toDigits (by decide) (by decide) member

theorem natural?_toDigits (n : Nat) : natural? (Nat.toDigits 10 n) = some n := by
  have digits : (Nat.toDigits 10 n).all Char.isDigit = true :=
    List.all_eq_true.mpr (toDigits_isDigit n)
  rw [natural?, if_pos ⟨Nat.toDigits_ne_nil, digits⟩, Nat.ofDigitChars_ten_toDigits]

/-- A status that was written to a variable is read again as it was. -/
theorem integer?_toDigits (n : Nat) : integer? (Nat.toDigits 10 n) = some (n : Int) := by
  unfold integer?
  split
  · next minus =>
    have digit := toDigits_isDigit n '-' (by simp [minus])
    exact absurd digit (by decide)
  · rw [natural?_toDigits]
    rfl

/-- An assignment reaches the programs only where the name was exported before. -/
theorem environment_assign : (x.assign name text).environment =
    if x.exported name then Function.update x.environment name (some text) else x.environment := by
  funext other
  by_cases same : other = name
  · subst same
    cases isExported : x.exported other <;> simp [Execution.environment, Execution.assign, isExported]
  · cases isExported : x.exported name <;>
      simp [Execution.environment, Execution.assign, Function.update_of_ne same]

theorem environment_ofEnvironment (env : Environment) :
    (Execution.ofEnvironment env).environment = env := by
  funext name
  cases value : env name <;> simp [Execution.environment, Execution.ofEnvironment, value]

theorem run_seq {first second : Script} {x y : Execution} (goes : first.run system x = .goesOn y) :
    (Script.seq first second).run system x = second.run system y := by
  rw [Script.run, goes]

theorem exitCode_program {env : Environment} {assignments : Assignments} {command : String} :
    (Script.program assignments command).exitCode system env =
      (system.execute ((Execution.ofEnvironment env).prefixed system assignments) command).2 :=
  rfl

/-- Nothing is substituted where nothing but line ends was written. -/
theorem substituted_eq_empty {written : String} :
    substituted written = "" ↔ ∀ c ∈ written.toList, c = '\n' := by
  rw [substituted, String.ofList_eq_empty_iff, List.rdropWhile_eq_nil_iff]
  simp

end

end Shell
