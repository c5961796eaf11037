import DiceScript.Assoc
import DiceScript.Cause
import DiceScript.Command.Args
import DiceScript.Command.Report
import DiceScript.Command.Run
import DiceScript.Command.Serve
import DiceScript.Command.Setup
import DiceScript.Dice.Keystream
import DiceScript.Dice.Stream
import DiceScript.Dict
import DiceScript.Eval.Machine
import DiceScript.Eval.Node
import DiceScript.Failure
import DiceScript.Files.Demo
import DiceScript.Files.Disk
import DiceScript.Files.Path
import DiceScript.Files.Tree
import DiceScript.Interpreter
import DiceScript.Json.Basic
import DiceScript.Json.Reader
import DiceScript.Json.Record
import DiceScript.Json.Writer
import DiceScript.Main
import DiceScript.Medium
import DiceScript.Node.Basic
import DiceScript.Node.Codec
import DiceScript.Number.Binary
import DiceScript.Number.Integer
import DiceScript.Number.Layout
import DiceScript.Number.Shortest
import DiceScript.Operator.Apply
import DiceScript.Operator.Arithmetic
import DiceScript.Operator.Comparison
import DiceScript.Options
import DiceScript.Scenario.Basic
import DiceScript.Scenario.Play
import DiceScript.Schedule
import DiceScript.Store.Basic
import DiceScript.Store.Image
import DiceScript.Text.Blank
import DiceScript.Text.Extender
import DiceScript.Text.Printable
import DiceScript.Text.Quoted
import DiceScript.Tier
import DiceScript.Value.Basic
import DiceScript.Value.Codec
import DiceScript.Value.Display
import DiceScript.Proofs.Eval.Keeps
import DiceScript.Proofs.Parts
import DiceScript.Proofs.Store.Namespaces
import DiceScript.Proofs.Eval.Invariant
import DiceScript.Proofs.Isolation.Writes
import DiceScript.Proofs.Eval.Lockstep
import DiceScript.Proofs.Isolation.Reads
import DiceScript.Proofs.Limits.Raising
import DiceScript.Proofs.Recursion.Plan
import DiceScript.Proofs.Recursion.Termination
import DiceScript.Proofs.Number.Packing
import DiceScript.Proofs.Operator.Results
import DiceScript.Proofs.Values.Lasting
import DiceScript.Proofs.Values.WellFormed
import DiceScript.Proofs.Number.Rounding
import DiceScript.Proofs.Number.Shortest
import DiceScript.Proofs.Json.Numbers
import DiceScript.Proofs.Json.Text
import DiceScript.Proofs.Codec.Records
import DiceScript.Proofs.Codec.Programs
import DiceScript.Proofs.Codec.Values
import DiceScript.Proofs.Number.Whole
import DiceScript.Proofs.Json.Range
import DiceScript.Proofs.Values.Finite
import DiceScript.Proofs.Codec.Finite
import DiceScript.Proofs.Codec.Texts
import DiceScript.Proofs.Files.Paths
import DiceScript.Proofs.Persistence.Replacing
import DiceScript.Proofs.Files.Growth
import DiceScript.Proofs.Persistence.Backups
import DiceScript.Proofs.Persistence.Keeping
import DiceScript.Proofs.Persistence.Reopen
import DiceScript.Proofs.Command.Carried
import DiceScript.Proofs.Command.Sessions
import DiceScript.Proofs.Recursion.Shape
import DiceScript.Proofs.Persistence.Copies
import DiceScript.Proofs.Recursion.Budgets
import DiceScript.Proofs.Recursion.Scope
import DiceScript.Proofs.Recursion.Dice
import DiceScript.Proofs.Command.Inputs
import DiceScript.Proofs.Command.SingleRuns
import DiceScript.Proofs.Command.Agreement
import DiceScript.Proofs.Store.Hollow
import DiceScript.Proofs.Store.Flat
import DiceScript.Proofs.Persistence.Scheduled
import DiceScript.Proofs.Isolation.Commuting
import DiceScript.Proofs.Eval.Grouping
import DiceScript.Proofs.Operator.Exactness
import DiceScript.Proofs.Eval.Sequence
import DiceScript.Proofs.Command.BadLines
import DiceScript.Proofs.Json.OneLine
import DiceScript.Proofs.Command.Framing
import DiceScript.Proofs.Dice.Sampling
import DiceScript.Proofs.Operator.Division
import DiceScript.Proofs.Operator.Powers
import DiceScript.Proofs.Dice.Rolls
import DiceScript.Proofs.Persistence.AllOrNothing
import DiceScript.Proofs.Schedule.History
import DiceScript.Proofs.Number.Order
import DiceScript.Proofs.Values.Sameness
import DiceScript.Proofs.Operator.Consistency
import DiceScript.Proofs.Persistence.Rotation
import DiceScript.Proofs.Codec.Spellings
import DiceScript.Proofs.Values.Display
import DiceScript.Proofs.Command.Library
import DiceScript.Proofs.Recursion.Finality
import DiceScript.Proofs.Codec.Scenarios
import DiceScript.Proofs.Scenario.Recording
