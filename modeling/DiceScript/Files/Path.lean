/-! # Paths as text

A path is a text with slashes. Slashes at the end and steps to the same directory say nothing about
the last part of a path, which is its name when it is neither `.` nor `..`. A name ends in an
extension when it has a dot that is not its first character.
-/

namespace DiceScript.Files.Path

/-! ## Parts -/

def splitSlashes : List Char → List (List Char)
  | [] => [[]]
  | c :: rest =>
    if c = '/' then [] :: splitSlashes rest
    else match splitSlashes rest with
      | part :: parts => (c :: part) :: parts
      | [] => [[c]]

def parts (path : String) : List String := (splitSlashes path.toList).map String.ofList

def isAbsolute (path : String) : Bool := path.toList.head? == some '/'

/-- A path in reverse, without the slashes and steps to the same directory at its end. -/
def trimReversed : List Char → List Char
  | '/' :: rest => trimReversed rest
  | '.' :: '/' :: rest => trimReversed rest
  | cs => cs

def splitLast (path : String) : List Char × List Char :=
  let cs := trimReversed path.toList.reverse
  ((cs.dropWhile (· != '/')).reverse, (cs.takeWhile (· != '/')).reverse)

def splitName? (path : String) : Option (List Char × List Char) :=
  let (front, last) := splitLast path
  if last = [] ∨ last = ['.'] ∨ last = ['.', '.'] then none else some (front, last)

/-! ## Names and extensions -/

def splitExtension (name : List Char) : List Char × Option (List Char) :=
  match (name.reverse.dropWhile (· != '.')).drop 1 with
  | [] => (name, none)
  | stem => (stem.reverse, some (name.reverse.takeWhile (· != '.')).reverse)

def extension? (path : String) : Option String :=
  match splitName? path with
  | some (_, name) => (splitExtension name).2.map String.ofList
  | none => none

/-- A path with another extension; a path without a name stays as it is. The one it had is taken off
the end of the path first, up to the dot; if that leaves `..`, there is no name to extend. -/
def withExtension (path extension : String) : String :=
  match splitName? path with
  | some (front, name) =>
    let stem := (splitExtension name).1
    if stem = ['.'] ∧ front ++ name = path.toList then String.ofList (front ++ ['.', '.'])
    else String.ofList (front ++ stem ++ '.' :: extension.toList)
  | none => path

/-! ## Directories -/

/-- The directory that a path lies in; the current one when the path does not tell. -/
def directory (path : String) : String :=
  let (front, last) := splitLast path
  if last = [] then "."
  else match (trimReversed front.reverse).reverse with
    | [] => if isAbsolute path then "/" else "."
    | front => String.ofList front

/-- A path seen from a directory; one that starts at the root stays as it is. -/
def join (base path : String) : String :=
  if isAbsolute path || base.isEmpty then path
  else if base.toList.getLast? == some '/' then base ++ path
  else base ++ "/" ++ path

end DiceScript.Files.Path
