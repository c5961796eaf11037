import DiceScript.Command.Setup
import DiceScript.Text.Blank

/-! # Answering lines

Every line of input that is not blank is answered with one line. A line is a user, a server and a
program; one that is not gets an answer that says so. After each answered line the schedule may want
the store kept. When the input ends the store is saved; a line that is no text ends the session at
once. The answers are counted on the way, and those that tell of a failure are counted apart.
-/

namespace DiceScript.Command

open Files (Disk)

/-! ## Lines of bytes -/

/-- The lines of some bytes, without their ends; `line` is the beginning of the first, in reverse. -/
def splitLines (line : List UInt8) : List UInt8 → List (List UInt8)
  | [] => if line.isEmpty then [] else [line.reverse]
  | 10 :: rest =>
    (match line with
      | 13 :: line => line.reverse
      | line => line.reverse) :: splitLines [] rest
  | b :: rest => splitLines (b :: line) rest

/-- A line as text, none when it is not UTF-8. -/
def lineText? (line : List UInt8) : Option String := String.fromUTF8? ⟨line.toArray⟩

def inputLines (input : ByteArray) : List (Option String) :=
  (splitLines [] input.data.toList).map lineText?

/-! ## Commands -/

structure LineCommand where
  identity : Identity
  program : Node

def LineCommand.ofText? (line : String) : Option LineCommand := do
  let j ← Json.parse? line
  match Json.toFields? ["user", "server", "program"] .top j with
  | some (inner, [user, server, program]) =>
    let user ← Json.required Json.toText? user
    let server ← Json.required Json.toText? server
    let program ← Json.required (Node.ofJson? inner) program
    return { identity := { user, server }, program }
  | _ => none

def answer (i : Interpreter) (line : String) : Answer × Interpreter :=
  match LineCommand.ofText? line with
  | none => (.invalid "the line is not a command", i)
  | some c =>
    match i.execute c.program c.identity with
    | (.ok outcome, i) => (.success outcome, i)
    | (.error failure, i) => (.failure failure, i)

structure Summary where
  handled : Nat := 0
  failed : Nat := 0
deriving Repr, DecidableEq, Inhabited

def Summary.add (s : Summary) (r : Reply) : Summary :=
  { handled := s.handled + 1, failed := if r.isOk then s.failed else s.failed + 1 }

/-- What answering lines comes to. -/
structure Answered where
  replies : List Reply
  /-- The interpreter after the last line. -/
  interpreter : Interpreter
  /-- The count of the replies when the lines ended, else why no more were answered. -/
  ending : Except Fault Summary

section Session

variable {m : Type → Type} [Monad m] [Disk m]

/-- Answers a line at a time; a blank one has no answer. -/
def serveLine (i : Interpreter) (now : Nat) (line : String) : m (Option Reply × Interpreter) := do
  if Text.isBlank line then return (none, i)
  else
    let (given, i) := answer i line
    let (kept, i) ← i.afterCommand now
    let persisted := match kept with
      | .ok (some action) => some (Persisted.done action)
      | .ok none => none
      | .error fault => some (.failed fault)
    return (some { answer := given, persisted }, i)

/-- Saves the store at the end of a session, if there is somewhere to save it. -/
def endSession (i : Interpreter) : m (Option Fault) := do
  if i.isDurable then
    match ← i.flush with
    | (.error fault, _) => return some (.storage fault)
    | (.ok _, _) => return none
  else return none

def unreadableLine : Fault := .host .input "the line is not valid UTF-8"

/-- Answers lines in turn until they end; `summary` counts the replies before them. -/
def answerLines (clock : m Nat) (i : Interpreter) (summary : Summary) :
    List (Option String) → m Answered
  | [] => return { replies := [], interpreter := i, ending := .ok summary }
  | none :: _ => return { replies := [], interpreter := i, ending := .error unreadableLine }
  | some line :: rest => do
    let (reply, i) ← serveLine i (← clock) line
    let later ← answerLines clock i (reply.toList.foldl Summary.add summary) rest
    return { later with replies := reply.toList ++ later.replies }

def Answered.start (i : Interpreter) : Answered :=
  { replies := [], interpreter := i, ending := .ok {} }

/-- Goes on with the lines that come next, unless the session is over. -/
def Answered.more (clock : m Nat) (a : Answered) (lines : List (Option String)) : m Answered := do
  match a.ending with
  | .error _ => return a
  | .ok summary =>
    let later ← answerLines clock a.interpreter summary lines
    return { later with replies := a.replies ++ later.replies }

/-- What is left to do when the input has ended: the store is saved, unless the session was over
before. -/
def Answered.conclude (a : Answered) : m (List Reply × Option Fault) := do
  match a.ending with
  | .error fault => return (a.replies, some fault)
  | .ok _ => return (a.replies, ← endSession a.interpreter)

/-- Answers lines, and saves the store when they have ended. -/
def serveLines (clock : m Nat) (i : Interpreter) (input : List (Option String)) :
    m (List Reply × Option Fault) := do
  (← answerLines clock i {} input).conclude

end Session

end DiceScript.Command
