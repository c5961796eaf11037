/-! # What the program asks of a disk

The operations on files, for any monad that has them. A failure comes with a text that says why. The
program is written against this interface; `FileTree` is one disk, the real one is another.
-/

namespace DiceScript.Files

/-- The operations on files. -/
class Disk (m : Type → Type) where
  /-- Whether there is a file or a directory at a path. -/
  isPresent : String → m Bool
  /-- Whether there is a directory at a path. -/
  isDirectory : String → m Bool
  /-- The text of a file. -/
  readText : String → m (Except String String)
  /-- Creates a file with a text, or replaces what is in it. -/
  writeText : String → String → m (Except String Unit)
  /-- Moves a file to a path, in place of a file that is there. -/
  rename : String → String → m (Except String Unit)
  /-- Removes a file. -/
  remove : String → m (Except String Unit)
  /-- Creates a directory and those above it, where they are missing. -/
  makeDirectories : String → m (Except String Unit)
  /-- The names in a directory. -/
  list : String → m (Except String (List String))
  /-- The files below a directory, each as the names that lead to it. -/
  filesBelow : String → m (Except String (List (List String)))

end DiceScript.Files
