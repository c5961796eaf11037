import DiceScript.Assoc
import DiceScript.Files.Disk
import DiceScript.Files.Path

/-! # File trees

A disk as a value: entries by the names that lead to them from the root, and the current directory,
from which a path is followed unless it starts at the root. A file holds text or bytes that are no
text. A name has at most 255 bytes and a path at most 4095, and neither holds a NUL.

- `find?` — the view through which every operation can be told.
- `locate?` — the place that a path leads to; every step on the way has to be a directory.
-/

namespace DiceScript.Files

inductive Content where
  | text (s : String)
  /-- Bytes that are not UTF-8. -/
  | bytes (b : List UInt8)
deriving DecidableEq

def Content.ofBytes (b : ByteArray) : Content :=
  match String.fromUTF8? b with
  | some s => .text s
  | none => .bytes b.toList

inductive Entry where
  | file (content : Content)
  | directory
deriving DecidableEq

/-- A place: the names that lead to it from the root. -/
abbrev Place := List String

def maxNameBytes : Nat := 255

def maxPathBytes : Nat := 4095

/-- Whether a path can be followed at all: it is neither empty nor too long and holds no NUL. -/
def isFollowable (path : String) : Bool :=
  !path.isEmpty && path.utf8ByteSize ≤ maxPathBytes && !path.toList.contains '\x00'

/-- Files and directories by their places, seen from a current directory. -/
structure FileTree where
  /-- The current directory. It and all directories above it are there. -/
  here : Place := []
  entries : List (Place × Entry) := []

namespace FileTree

instance : Inhabited FileTree := ⟨{}⟩

/-! ## Places -/

def isAbove (t : FileTree) (p : Place) : Bool := p.isPrefixOf t.here

def find? (t : FileTree) (p : Place) : Option Entry :=
  if t.isAbove p then some .directory else t.entries.lookup p

def isDirectoryAt (t : FileTree) (p : Place) : Bool := t.find? p == some .directory

def insert (t : FileTree) (p : Place) (e : Entry) : FileTree :=
  { t with entries := (p, e) :: t.entries.filter (·.1 != p) }

def erase (t : FileTree) (p : Place) : FileTree :=
  { t with entries := t.entries.filter (·.1 != p) }

/-- An entry that is put at a place is there, and nothing else has changed. -/
@[simp] theorem find?_insert (t : FileTree) (p : Place) (e : Entry) (q : Place)
    (h : t.isAbove p = false) :
    (t.insert p e).find? q = if q = p then some e else t.find? q := by
  simp only [isAbove] at h
  simp only [find?, isAbove, insert, Assoc.lookup_cons_ite, Assoc.lookup_filter_ne]
  by_cases hp : q = p
  · subst hp
    simp [h]
  · simp [hp]

/-- Nothing is at a place whose entry has been removed, and nothing else has changed. -/
@[simp] theorem find?_erase (t : FileTree) (p q : Place) (h : t.isAbove p = false) :
    (t.erase p).find? q = if q = p then none else t.find? q := by
  simp only [isAbove] at h
  simp only [find?, isAbove, erase, Assoc.lookup_filter_ne]
  by_cases hp : q = p
  · subst hp
    simp [h]
  · simp [hp]

/-- The place that a path is followed from. -/
def start (t : FileTree) (path : String) : Place := if Path.isAbsolute path then [] else t.here

def follow? (t : FileTree) (p : Place) : List String → Option Place
  | [] => some p
  | part :: rest =>
    if t.isDirectoryAt p then
      if part = "" ∨ part = "." then t.follow? p rest
      else if part = ".." then t.follow? p.dropLast rest
      else if part.utf8ByteSize ≤ maxNameBytes then t.follow? (p ++ [part]) rest
      else none
    else none

/-- The place that a path leads to. Nothing need be there, but the directory it lies in. -/
def locate? (t : FileTree) (path : String) : Option Place :=
  if isFollowable path then t.follow? (t.start path) (Path.parts path) else none

def lookup? (t : FileTree) (path : String) : Option Entry := (t.locate? path).bind t.find?

/-! ## Operations -/

def readText (t : FileTree) (path : String) : Except String String :=
  match t.lookup? path with
  | some (.file (.text s)) => .ok s
  | some (.file (.bytes _)) => .error "the file is not valid UTF-8"
  | some .directory => .error "it is a directory"
  | none => .error "there is no such file"

def write (t : FileTree) (path : String) (c : Content) : Except String FileTree :=
  match t.locate? path with
  | none => .error "there is no such directory"
  | some p =>
    if t.isDirectoryAt p then .error "it is a directory" else .ok (t.insert p (.file c))

def rename (t : FileTree) (source target : String) : Except String FileTree :=
  match t.locate? source, t.locate? target with
  | some p, some q =>
    match t.find? p with
    | some (.file c) =>
      if t.isDirectoryAt q then .error "it is a directory"
      else .ok ((t.erase p).insert q (.file c))
    | _ => .error "there is no such file"
  | _, _ => .error "there is no such directory"

def remove (t : FileTree) (path : String) : Except String FileTree :=
  match t.locate? path with
  | none => .error "there is no such file"
  | some p =>
    match t.find? p with
    | some (.file _) => .ok (t.erase p)
    | some .directory => .error "it is a directory"
    | none => .error "there is no such file"

/-- Creates the directories that parts of a path name, from a directory on. What is created stays
when a file is in the way further on. -/
def makeFrom (t : FileTree) (p : Place) : List String → Except String Unit × FileTree
  | [] => (.ok (), t)
  | part :: rest =>
    if part = "" ∨ part = "." then t.makeFrom p rest
    else if part = ".." then t.makeFrom p.dropLast rest
    else if part.utf8ByteSize ≤ maxNameBytes then
      match t.find? (p ++ [part]) with
      | some .directory => t.makeFrom (p ++ [part]) rest
      | some (.file _) => (.error "a file is in the way", t)
      | none => (t.insert (p ++ [part]) .directory).makeFrom (p ++ [part]) rest
    else (.error "the name is too long", t)

/-- Creates a directory and those above it. The empty path asks for none. -/
def makeDirectories (t : FileTree) (path : String) : Except String Unit × FileTree :=
  if path.isEmpty then (.ok (), t)
  else if isFollowable path then t.makeFrom (t.start path) (Path.parts path)
  else (.error "there can be no such directory", t)

/-- The name of a place in a directory, if it lies directly in it. -/
def nameIn? (dir p : Place) : Option String :=
  match p.drop dir.length with
  | [name] => if dir.isPrefixOf p then some name else none
  | _ => none

def list (t : FileTree) (path : String) : Except String (List String) :=
  match t.locate? path with
  | some dir =>
    if t.isDirectoryAt dir then .ok (t.entries.filterMap fun (p, _) => nameIn? dir p)
    else .error "it is no directory"
  | none => .error "there is no such directory"

def below? (dir p : Place) : Option Place :=
  if dir.isPrefixOf p then some (p.drop dir.length) else none

/-- The entries below a directory that `wanted` picks, each as the names that lead to it from
there. -/
def entriesBelow (t : FileTree) (dir : Place) (wanted : Entry → Bool) : List Place :=
  t.entries.filterMap fun (p, e) => if wanted e then below? dir p else none

/-- The files below a directory. Every directory below has to be within reach of a path. -/
def filesBelow (t : FileTree) (path : String) : Except String (List Place) :=
  match t.locate? path with
  | some dir =>
    let paths := (t.entriesBelow dir (· == .directory)).map fun names =>
      Path.join path ("/".intercalate names)
    if paths.all isFollowable then .ok (t.entriesBelow dir (· != .directory))
    else .error "a path is too long"
  | none => .error "there is no such directory"

end FileTree

/-! ## The tree as a disk -/

/-- Carries out an operation that changes the tree when it succeeds. -/
def changing (operation : FileTree → Except String FileTree) :
    StateM FileTree (Except String Unit) := do
  match operation (← get) with
  | .ok t =>
    set t
    return .ok ()
  | .error why => return .error why

instance : Disk (StateM FileTree) where
  isPresent path := do return ((← get).lookup? path).isSome
  isDirectory path := do return (← get).lookup? path == some .directory
  readText path := do return (← get).readText path
  writeText path s := changing (·.write path (.text s))
  rename source target := changing (·.rename source target)
  remove path := changing (·.remove path)
  makeDirectories path := modifyGet (·.makeDirectories path)
  list path := do return (← get).list path
  filesBelow path := do return (← get).filesBelow path

end DiceScript.Files
