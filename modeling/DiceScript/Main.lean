import DiceScript.Command.Run
import Std.Time.DateTime.Timestamp

/-! # The program

The commands on the disk, the clock and the standard streams of the machine. Everything that is
decided is decided in `Command`; here it is only carried out. A session is answered a line at a time
by `Answered.more`, which comes to the same as the lines at once, so that each reply is written as
soon as it is there.
-/

namespace DiceScript.Host

open Files Command

/-! ## The disk of the machine -/

def attempt {α : Type} (action : IO α) : IO (Except String α) := do
  try
    return .ok (← action)
  catch complaint =>
    return .error (toString complaint)

/-- Whether a question about the disk is answered with yes; when it fails, it is not. -/
def holds (question : IO Bool) : IO Bool := do
  match ← attempt question with
  | .ok answer => return answer
  | .error _ => return false

def located (path : String) := (fun here => { here with toString := path }) <$> IO.currentDir

def placesBelow (dir : String) : IO (List (List String)) := do
  let root ← located dir
  let found ← root.walkDir
  let files ← found.filterM fun file => return (← file.metadata).type == .file
  return files.toList.map fun file => file.components.drop root.components.length

instance : Disk IO where
  isPresent path := holds do (← located path).pathExists
  isDirectory path := holds do (← located path).isDir
  readText path := attempt (IO.FS.readFile path)
  writeText path text := attempt (IO.FS.writeFile path text)
  rename source target := attempt (IO.FS.rename source target)
  remove path := attempt (IO.FS.removeFile path)
  makeDirectories path := attempt (if path.isEmpty then pure () else IO.FS.createDirAll path)
  list dir := attempt do return (← (← located dir).readDir).toList.map (·.fileName)
  filesBelow dir := attempt (placesBelow dir)

/-! ## Time and chance -/

def now : IO Nat := return (← Std.Time.Timestamp.now).toMillisecondsSinceUnixEpoch.toInt.toNat

def entropy : IO UInt64 :=
  return (← IO.getRandomBytes 8).foldl (fun seed byte => seed <<< 8 ||| byte.toUInt64) 0

/-! ## The standard streams -/

def printLines (lines : List String) : IO Unit := do
  lines.forM IO.println
  (← IO.getStdout).flush

/-- Prints a report; what the process ends with. How the program is used goes to the error stream when
the command line was not understood. -/
def conclude (report : Report) : IO UInt32 := do
  printLines report.lines
  if report matches .usage then Report.helpLines.forM IO.eprintln
  return UInt32.ofNat report.exitCode

/-- Reads on to the end of a line; nothing is read when the input has ended. -/
partial def readLine (input : IO.FS.Stream) (line : ByteArray) : IO ByteArray := do
  let byte ← input.read 1
  let line := line ++ byte
  if byte.isEmpty || byte.toList == [10] then return line else readLine input line

/-- Goes on with the lines of an input as they come, and writes each reply before the next line is
read. -/
partial def answerInput (input : IO.FS.Stream) (answered : Answered) : IO Answered := do
  let line ← readLine input .empty
  let answered ← answered.more now (inputLines line)
  printLines (Report.session answered.replies none).lines
  let answered := { answered with replies := [] }
  if line.isEmpty || answered.ending matches .error _ then return answered
  else answerInput input answered

/-- Answers the lines of the standard input. The replies are written by then, so there are none left. -/
def session (i : Interpreter) : IO (List Reply × Option Fault) := do
  (← answerInput (← IO.getStdin) (.start i)).conclude

end DiceScript.Host

open DiceScript in
def main (args : List String) : IO UInt32 := do
  Host.conclude (← Command.runWith Host.now (← Host.entropy) args Host.session)
