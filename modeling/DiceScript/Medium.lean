import DiceScript.Files.Disk
import DiceScript.Files.Path
import DiceScript.Json.Reader
import DiceScript.Json.Writer
import DiceScript.Store.Image

/-! # Where images are kept

A medium keeps the last saved image of a store and copies of earlier ones. One keeps them in memory
and can be made unavailable; the other keeps them in files: the image is written next to its place
and moved there, and the copies lie in a directory of their own, of which the newest few are kept.
-/

namespace DiceScript

open Files (Disk)

/-! ## What can go wrong -/

inductive StorageStep where
  | makeDirectory
  | write
  | replace
  | listBackups
  | read
  | decode
deriving Repr, DecidableEq, Inhabited

def StorageStep.complaint : StorageStep → String
  | .makeDirectory => "Cannot create store directory"
  | .write => "Cannot write store image"
  | .replace => "Cannot replace store image"
  | .listBackups => "Cannot list backups"
  | .read => "Cannot read store image"
  | .decode => "Store image is corrupt"

inductive StorageFault where
  | noMedium
  | unavailable
  | unsupportedSchema (found : String)
  /-- A step failed, and the disk or the reader said why. -/
  | failed (step : StorageStep) (why : String)
deriving Repr, DecidableEq, Inhabited

namespace StorageFault

def message : StorageFault → String
  | .noMedium => "No durable medium is configured."
  | .unavailable => "Storage medium is unavailable."
  | .unsupportedSchema found => "Unsupported store schema \"" ++ found ++ "\"."
  | .failed step why => step.complaint ++ ": " ++ why

def failure (f : StorageFault) : Failure := { kind := .storageError, message := f.message }

end StorageFault

/-- The store of an image, if its schema is the current one. -/
def Image.restore (i : Image) : Except StorageFault Store :=
  if i.schema = Image.currentSchema then .ok i.store else .error (.unsupportedSchema i.schema)

/-! ## In memory -/

structure MemoryMedium where
  saved : Option Image := none
  /-- The copies, the oldest first. -/
  backups : List Image := []
  available : Bool := true

namespace MemoryMedium

def load (d : MemoryMedium) : Except StorageFault (Option Image) :=
  if d.available then .ok d.saved else .error .unavailable

def save (d : MemoryMedium) (i : Image) : Except StorageFault MemoryMedium :=
  if d.available then .ok { d with saved := some i } else .error .unavailable

def backup (d : MemoryMedium) (i : Image) : Except StorageFault MemoryMedium :=
  if d.available then .ok { d with backups := d.backups ++ [i] } else .error .unavailable

end MemoryMedium

/-! ## In files -/

/-- A medium in files. -/
structure FileMedium where
  /-- Where the image is. -/
  path : String
  /-- Where the copies are. -/
  backupDir : String
  /-- How many copies are kept. -/
  keep : Nat
  /-- How many copies have been made. -/
  made : Nat
deriving Repr, DecidableEq, Inhabited

namespace FileMedium

def defaultKeep : Nat := 5

/-- The medium of a path, with the copies in the directory that has the path's name and the
extension `backups`. -/
def ofPath (path : String) : FileMedium :=
  { path, backupDir := Files.Path.withExtension path "backups", keep := defaultKeep, made := 0 }

def withBackupDir (d : FileMedium) (dir : String) : FileMedium := { d with backupDir := dir }

/-- The medium with another number of copies kept, one at least. -/
def keeping (d : FileMedium) (count : Nat) : FileMedium := { d with keep := max count 1 }

/-- Where an image is written before it is moved to `path`. -/
def stagingPath (path : String) : String := Files.Path.withExtension path "json.tmp"

def padded (width n : Nat) : String :=
  let digits := Nat.toDigits 10 n
  String.ofList (List.replicate (width - digits.length) '0' ++ digits)

/-- The name of the copy with a number, made at a time in milliseconds. Names sort by time first. -/
def backupName (now number : Nat) : String :=
  "store-" ++ padded 20 now ++ "-" ++ padded 6 number ++ ".json"

section Operations

variable {m : Type → Type} [Monad m] [Disk m]

def tag {α : Type} (step : StorageStep) : Except String α → Except StorageFault α
  | .ok a => .ok a
  | .error why => .error (.failed step why)

/-- Puts an image at a path: writes it next to the path and moves it there. -/
def writeImage (path : String) (i : Image) : m (Except StorageFault Unit) := do
  match ← Disk.makeDirectories (Files.Path.directory path) with
  | .error why => return .error (.failed .makeDirectory why)
  | .ok _ =>
    match ← Disk.writeText (stagingPath path) i.toJson.pretty with
    | .error why => return .error (.failed .write why)
    | .ok _ => return tag .replace (← Disk.rename (stagingPath path) path)

def decode (text : String) : Except StorageFault Image :=
  match (Json.parse? text).bind (Image.ofJson? .top) with
  | none => .error (.failed .decode "the text is not a store image")
  | some i =>
    if i.schema = Image.currentSchema then .ok i else .error (.unsupportedSchema i.schema)

/-- The saved image, none when there is no file. -/
def load (d : FileMedium) : m (Except StorageFault (Option Image)) := do
  if ← Disk.isPresent d.path then
    match ← Disk.readText d.path with
    | .error why => return .error (.failed .read why)
    | .ok text => return (decode text).map some
  else return .ok none

def save (d : FileMedium) (i : Image) : m (Except StorageFault Unit) := writeImage d.path i

/-- Removes files one after another; one that cannot be removed stays. -/
def removeAll (dir : String) : List String → m Unit
  | [] => return ()
  | name :: rest => do
    let _ ← Disk.remove (m := m) (Files.Path.join dir name)
    removeAll dir rest

def imageNames (names : List String) : List String :=
  (names.filter fun name => Files.Path.extension? name == some "json").mergeSort (· ≤ ·)

/-- Removes the oldest copies, by name, until no more are left than are kept. -/
def prune (d : FileMedium) : m (Except StorageFault Unit) := do
  match ← Disk.list d.backupDir with
  | .error why => return .error (.failed .listBackups why)
  | .ok names =>
    let images := imageNames names
    removeAll d.backupDir (images.take (images.length - d.keep))
    return .ok ()

/-- Keeps a copy of an image. Its number is used up even if this fails. -/
def backup (d : FileMedium) (now : Nat) (i : Image) :
    m (Except StorageFault Unit × FileMedium) := do
  let target := Files.Path.join d.backupDir (backupName now d.made)
  let d := { d with made := d.made + 1 }
  match ← writeImage target i with
  | .error fault => return (.error fault, d)
  | .ok _ => return (← prune d, d)

end Operations

end FileMedium

/-! ## Either -/

inductive Medium where
  | memory (d : MemoryMedium)
  | file (d : FileMedium)

namespace Medium

variable {m : Type → Type} [Monad m] [Disk m]

def load : Medium → m (Except StorageFault (Option Image))
  | .memory d => return d.load
  | .file d => d.load

def save (d : Medium) (i : Image) : m (Except StorageFault Unit × Medium) := do
  match d with
  | .memory d =>
    match d.save i with
    | .ok d => return (.ok (), .memory d)
    | .error fault => return (.error fault, .memory d)
  | .file d => return (← d.save i, .file d)

def backup (d : Medium) (now : Nat) (i : Image) : m (Except StorageFault Unit × Medium) := do
  match d with
  | .memory d =>
    match d.backup i with
    | .ok d => return (.ok (), .memory d)
    | .error fault => return (.error fault, .memory d)
  | .file d =>
    let (result, d) ← d.backup now i
    return (result, .file d)

end Medium

end DiceScript
