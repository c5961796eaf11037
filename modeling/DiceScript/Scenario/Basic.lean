import DiceScript.Options
import DiceScript.Value.Codec

/-! # Scenarios

A scenario is a conversation: programs that are run in order on one store, each with the outcome that
it has to have. Optional parts of an expected outcome that are left out are not compared.
-/

namespace DiceScript

/-- What a step of a scenario comes to. -/
inductive StepOutcome where
  | value (value : Value) (actions : Option (List String))
  | error (kind : String) (iterations : Option UInt64)

namespace StepOutcome

/-- Whether an expectation that was left out or is the same accepts what was observed. -/
def acceptsOption {α : Type} [DecidableEq α] : Option α → Option α → Bool
  | none, _ => true
  | expected, observed => expected == observed

def accepts : (expected observed : StepOutcome) → Bool
  | .value v actions, .value v' actions' => v.sameAs v' && acceptsOption actions actions'
  | .error kind iterations, .error kind' iterations' =>
    kind == kind' && acceptsOption iterations iterations'
  | _, _ => false

/-! ## Documents -/

def optionalMember {α : Type} (name : String) (write : α → Json) : Option α → List (String × Json)
  | some a => [(name, write a)]
  | none => []

def toJson : StepOutcome → Json
  | .value v actions =>
    .obj ([("kind", .str "value"), ("value", v.toJson)] ++
      optionalMember "actions" Node.textsJson actions)
  | .error kind iterations =>
    .obj ([("kind", .str "error"), ("errorKind", .str kind)] ++
      optionalMember "iterations" (fun n => .int n.toNat) iterations)

def fieldNames (kind : String) : List String :=
  match kind with
  | "value" => ["value", "actions"]
  | "error" => ["errorKind", "iterations"]
  | _ => []

def ofFields? (kind : String) (fields : List (Option Json)) : Option StepOutcome :=
  match kind, fields with
  | "value", [v, actions] => do
    let v ← Json.required (Value.ofJson? .held) v
    let actions ← Json.optional (Json.toTexts? .held) actions
    return .value v actions
  | "error", [kind, iterations] => do
    let kind ← Json.required Json.toText? kind
    let iterations ← Json.optional Json.toUInt64? iterations
    return .error kind iterations
  | _, _ => none

/-- The kind and the fields of a document, by name or in their order after the kind. -/
def read? : Json → Option StepOutcome
  | .obj members =>
    match members.filter (·.1 == "kind") with
    | [(_, .str kind)] => do ofFields? kind (← Json.pick (fieldNames kind) members)
    | _ => none
  | .arr (.str kind :: items) => do ofFields? kind (← Json.place (fieldNames kind) items)
  | _ => none

/-- The outcome of a document. Like a node it is read whole before its kind is known. -/
def ofJson? (scope : Json.Scope) (j : Json) : Option StepOutcome :=
  if scope.admits j then read? j else none

end StepOutcome

/-- A program with the outcome that it has to have. -/
structure ScenarioStep where
  user : Option String
  server : Option String
  program : Option Node
  /-- A file with the program, seen from the directory of the scenario. -/
  programFile : Option String
  expect : StepOutcome

namespace ScenarioStep

def optionJson {α : Type} (write : α → Json) : Option α → Json
  | some a => write a
  | none => .null

def toJson (s : ScenarioStep) : Json :=
  .obj [("user", optionJson .str s.user), ("server", optionJson .str s.server),
    ("program", optionJson Node.toJson s.program),
    ("programFile", optionJson .str s.programFile), ("expect", s.expect.toJson)]

def ofJson? (scope : Json.Scope) (j : Json) : Option ScenarioStep :=
  match Json.toFields? ["user", "server", "program", "programFile", "expect"] scope j with
  | some (inner, [user, server, program, programFile, expect]) => do
    let user ← Json.optional Json.toText? user
    let server ← Json.optional Json.toText? server
    let program ← Json.optional (Node.ofJson? inner) program
    let programFile ← Json.optional Json.toText? programFile
    let expect ← Json.required (StepOutcome.ofJson? inner) expect
    return { user, server, program, programFile, expect }
  | _ => none

end ScenarioStep

/-- Programs to run in order on one store. -/
structure Scenario where
  schema : String
  user : String := "tester"
  server : String := "testbed"
  options : Option Options := none
  /-- What is installed in the core tier before the first step. -/
  core : Bindings := {}
  steps : List ScenarioStep := []

namespace Scenario

def currentSchema : String := "dl-tool-case.v1"

def toJson (s : Scenario) : Json :=
  .obj [("schemaVersion", .str s.schema), ("user", .str s.user), ("server", .str s.server),
    ("options", ScenarioStep.optionJson Options.toJson s.options), ("core", s.core.toJson),
    ("steps", .arr (s.steps.map ScenarioStep.toJson))]

def ofJson? (scope : Json.Scope) (j : Json) : Option Scenario :=
  match Json.toFields? ["schemaVersion", "user", "server", "options", "core", "steps"] scope j with
  | some (inner, [schema, user, server, options, core, steps]) => do
    let schema ← Json.required Json.toText? schema
    let user ← Json.withDefault "tester" Json.toText? user
    let server ← Json.withDefault "testbed" Json.toText? server
    let options ← Json.optional (Options.ofJson? inner) options
    let core ← Json.withDefault {} (Bindings.ofJson? inner) core
    let steps ← Json.withDefault [] (Json.toList? ScenarioStep.ofJson? inner) steps
    return { schema, user, server, options, core, steps }
  | _ => none

end Scenario

end DiceScript
