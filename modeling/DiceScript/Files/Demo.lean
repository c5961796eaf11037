import DiceScript.Files.Path

/-! # Where the demonstrations lie

The directories of the demonstrations, seen from a root: a core library, programs, and scenarios in a
directory each.
-/

namespace DiceScript.Files.Demo

def demosDir (root : String) : String := Path.join root "demos"

def coreDir (root : String) : String := Path.join (demosDir root) "core"

def programPath (root name : String) : String :=
  Path.join (Path.join (demosDir root) "programs") (name ++ ".json")

def casesDir (root : String) : String := Path.join (demosDir root) "cases"

def caseDir (root name : String) : String := Path.join (casesDir root) name

def casePath (root name : String) : String := Path.join (caseDir root name) "case.json"

end DiceScript.Files.Demo
