import DiceScript.Command.Serve

/-! # Commands

`run` does what a command line asks for and reports what it comes to.
-/

namespace DiceScript.Command

open Files (Disk)

variable {m : Type → Type} [Monad m] [Disk m]

/-- Runs the program of a file and saves the store, whether the program fails or not. A failure of the
program is reported even when the store is not saved. -/
def exec (clock : m Nat) (entropy : UInt64) (program : String) (identity : Identity)
    (setup : Setup) : m Report := do
  match ← openInterpreter setup (← clock) entropy with
  | .error fault => return .fault fault
  | .ok i =>
    match ← readProgram program with
    | .error fault => return .fault fault
    | .ok node =>
      let (result, i) := i.execute node identity
      let fault ← endSession i
      match result with
      | .ok outcome => return .outcome outcome fault.isNone
      | .error failure => return .fault (.program failure)

def view (clock : m Nat) (entropy : UInt64) (identity : Identity) (tiers : List Tier)
    (setup : Setup) : m Report := do
  match ← openInterpreter setup (← clock) entropy with
  | .error fault => return .fault fault
  | .ok i => return .names (tiers.map fun tier => (tier, i.keys tier identity))

/-- Opens an interpreter for a session. -/
def serveWith (clock : m Nat) (entropy : UInt64) (setup : Setup)
    (session : Interpreter → m (List Reply × Option Fault)) : m Report := do
  match ← openInterpreter setup (← clock) entropy with
  | .error fault => return .fault fault
  | .ok i =>
    let (replies, fault) ← session i
    return .session replies fault

def serve (clock : m Nat) (entropy : UInt64) (setup : Setup) (input : List (Option String)) :
    m Report :=
  serveWith clock entropy setup fun i => serveLines clock i input

/-- Does what a command line asks for; `session` answers the lines of the input, wherever they are. -/
def runWith (clock : m Nat) (entropy : UInt64) (args : List String)
    (session : Interpreter → m (List Reply × Option Fault)) : m Report :=
  match parse args with
  | .error .help => return .help
  | .error .usage => return .usage
  | .ok (.exec program identity setup) => exec clock entropy program identity setup
  | .ok (.view identity tiers setup) => view clock entropy identity tiers setup
  | .ok (.serve setup) => serveWith clock entropy setup session

/-- Does what a command line asks for, with the lines of an input. -/
def run (clock : m Nat) (entropy : UInt64) (args : List String) (input : List (Option String)) :
    m Report :=
  runWith clock entropy args fun i => serveLines clock i input

end DiceScript.Command
