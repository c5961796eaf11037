import DiceScript.Command.Args
import DiceScript.Command.Report

/-! # Opening an interpreter

The options, then the store, then the core library. The library is every file below a directory whose
extension is `json`, in order of their paths name by name; where two files bind a name the later one
wins. It takes the place of whatever core tier the store was saved with.
-/

namespace DiceScript.Command

open Files (Disk)

variable {m : Type → Type} [Monad m] [Disk m]

/-- The options of a file, the defaults when there is none. -/
def readOptionsFile : Option String → m (Except Fault Options)
  | none => return .ok {}
  | some path => do
    match ← Disk.readText path with
    | .error why => return .error (.host .readConfig why)
    | .ok text =>
      match (Json.parse? text).bind (Options.ofJson? .top) with
      | none => return .error (.host .decodeConfig "the text is not a configuration")
      | some options => return .ok options

def readProgram (path : String) : m (Except Fault Node) := do
  match ← Disk.readText path with
  | .error why => return .error (.host .readProgram why)
  | .ok text =>
    match (Json.parse? text).bind (Node.ofJson? .top) with
    | none => return .error (.host .decodeProgram "the text is not a program")
    | some program => return .ok program

def libraryFiles (places : List (List String)) : List (List String) :=
  (places.filter fun place =>
    Files.Path.extension? (place.getLast?.getD "") == some "json").mergeSort
      fun a b => decide (¬ b < a)

def pathAlong (dir : String) (place : List String) : String :=
  Files.Path.join dir ("/".intercalate place)

def readLibraryFiles (dir : String) (library : Bindings) :
    List (List String) → m (Except Fault Bindings)
  | [] => return .ok library
  | place :: rest => do
    match ← Disk.readText (pathAlong dir place) with
    | .error why => return .error (.host .readCore why)
    | .ok text =>
      match (Json.parse? text).bind (Bindings.ofJson? .top) with
      | none => return .error (.host .decodeCore "the text is not a library")
      | some more => readLibraryFiles dir (library.extend more) rest

def readLibrary (dir : String) : m (Except Fault Bindings) := do
  if !(← Disk.isPresent dir) then
    return .error (.host .findCore ("core-dir does not exist: " ++ dir))
  else if !(← Disk.isDirectory dir) then
    return .error (.host .enterCore ("core-dir is not a directory: " ++ dir))
  else
    match ← Disk.filesBelow dir with
    | .error why => return .error (.host .scanCore why)
    | .ok places => readLibraryFiles dir {} (libraryFiles places)

/-- The store of a file with its medium; an empty one without a medium when there is none. -/
def openStore : Option String → m (Except Fault (Store × Option Medium))
  | none => return .ok ({}, none)
  | some path => do
    let medium := Medium.file (.ofPath path)
    match ← Interpreter.openStore medium with
    | .error fault => return .error (.storage fault)
    | .ok store => return .ok (store, some medium)

/-- Opens an interpreter at a time, with a seed for the dice if the options have none. -/
def openInterpreter (s : Setup) (now : Nat) (entropy : UInt64) :
    m (Except Fault Interpreter) := do
  match ← readOptionsFile s.config with
  | .error fault => return .error fault
  | .ok options =>
    match ← openStore s.store with
    | .error fault => return .error fault
    | .ok (store, medium) =>
      match s.coreDir with
      | none => return .ok (.start store medium options now entropy)
      | some dir =>
        match ← readLibrary dir with
        | .error fault => return .error fault
        | .ok library =>
          return .ok (.start (store.replaceCore library) medium options now entropy)

end DiceScript.Command
