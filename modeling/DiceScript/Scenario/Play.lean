import DiceScript.Interpreter
import DiceScript.Scenario.Basic

/-! # Playing scenarios

`play` runs the steps of a scenario on a fresh store and observes their outcomes; a program that
fails is an observation, too. `check` plays a scenario from a file and compares.
-/

namespace DiceScript

open Files (Disk)

/-- Why a scenario could not be played or did not go as expected. -/
inductive ScenarioFault where
  | unreadable (path : String)
  | parseScenario (path : String)
  | parseProgram (path : String)
  | schema (found : String)
  | noProgram (index : Nat)
  | tooManySteps (limit : Nat)
  | mismatch (index : Nat) (expected observed : StepOutcome)

def ScenarioFault.message : ScenarioFault → String
  | .unreadable path => "Failed to read file " ++ path ++ "."
  | .parseScenario path => "Failed to parse testcase " ++ path ++ "."
  | .parseProgram path => "Failed to parse program " ++ path ++ "."
  | .schema found =>
    "Invalid testcase schema version \"" ++ found ++ "\", expected \"" ++ Scenario.currentSchema ++
      "\"."
  | .noProgram index =>
    "Step " ++ toString index ++ " has neither an inline program nor a program file."
  | .tooManySteps limit => "Guard exceeded: max_steps=" ++ toString limit ++ "."
  | .mismatch index expected observed =>
    "Step mismatch at index " ++ toString index ++ ". expected=" ++ expected.toJson.compact ++
      " actual=" ++ observed.toJson.compact

namespace Scenario

def maxSteps : Nat := 500

def observe : Except Failure Outcome → StepOutcome
  | .ok o => .value o.value (some o.actions)
  | .error f => .error f.kind.code f.iterations

/-- The interpreter that a scenario starts with. Its dice are seeded with 1 unless the options say
otherwise. -/
def interpreter (s : Scenario) : Interpreter :=
  let options := s.options.getD {}
  let store := s.core.toList.foldl (fun st (name, v) => st.installCore name v) ({} : Store)
  Interpreter.start store none { options with randomSeed := some (options.randomSeed.getD 1) } 0 0

def identity (s : Scenario) (step : ScenarioStep) : Identity :=
  { user := step.user.getD s.user, server := step.server.getD s.server }

section Play

variable {m : Type → Type} [Monad m] [Disk m]

def readFrom (path : String) : m (Except ScenarioFault Scenario) := do
  match ← Disk.readText path with
  | .error _ => return .error (.unreadable path)
  | .ok text =>
    match (Json.parse? text).bind (Scenario.ofJson? .top) with
    | none => return .error (.parseScenario path)
    | some s =>
      return if s.schema = currentSchema then .ok s else .error (.schema s.schema)

/-- The program of a step; one that is given inline goes before a file. -/
def stepProgram (dir : String) (index : Nat) (step : ScenarioStep) :
    m (Except ScenarioFault Node) := do
  match step.program, step.programFile with
  | some program, _ => return .ok program
  | none, none => return .error (.noProgram index)
  | none, some file =>
    let path := Files.Path.join dir file
    match ← Disk.readText path with
    | .error _ => return .error (.unreadable path)
    | .ok text =>
      match (Json.parse? text).bind (Node.ofJson? .top) with
      | none => return .error (.parseProgram path)
      | some program => return .ok program

/-- Runs steps in order, the first of which has the number `index`, and observes their outcomes. -/
def playSteps (dir : String) (s : Scenario) (i : Interpreter) (index : Nat) :
    List ScenarioStep → m (Except ScenarioFault (List StepOutcome))
  | [] => return .ok []
  | step :: rest => do
    match ← stepProgram dir index step with
    | .error fault => return .error fault
    | .ok program =>
      let (result, i) := i.execute program (s.identity step)
      match ← playSteps dir s i (index + 1) rest with
      | .error fault => return .error fault
      | .ok observed => return .ok (observe result :: observed)

def play (dir : String) (s : Scenario) : m (Except ScenarioFault (List StepOutcome)) := do
  if maxSteps < s.steps.length then return .error (.tooManySteps maxSteps)
  else playSteps dir s s.interpreter 0 s.steps

/-- The first step, from the number `index` on, whose expectation does not accept what was
observed. -/
def firstMismatch? (index : Nat) : List ScenarioStep → List StepOutcome → Option ScenarioFault
  | step :: steps, observed :: rest =>
    if step.expect.accepts observed then firstMismatch? (index + 1) steps rest
    else some (.mismatch index step.expect observed)
  | _, _ => none

/-- Plays the scenario of a file and compares what is observed with what is expected. -/
def check (dir path : String) : m (Except ScenarioFault Unit) := do
  match ← readFrom path with
  | .error fault => return .error fault
  | .ok s =>
    match ← s.play dir with
    | .error fault => return .error fault
    | .ok observed =>
      match firstMismatch? 0 s.steps observed with
      | some fault => return .error fault
      | none => return .ok ()

end Play

end Scenario

end DiceScript
