import DiceScript.Tier

/-! # Command lines

Three commands with options that take a value: `--name value` or `--name=value`, each at most once
and in any order. A value of its own must not look like an option, so it does not start with a minus
unless it is one. Nothing else may stand on the line. A line is read from left to right, and whatever
comes first, a fault or a call for help, decides.
-/

namespace DiceScript.Command

/-- Where an interpreter gets its store, core library and options from. -/
structure Setup where
  store : Option String := none
  coreDir : Option String := none
  config : Option String := none
deriving Repr, DecidableEq, Inhabited

/-- What is asked for. -/
inductive Request where
  /-- Run the program of a file as someone. -/
  | exec (program : String) (identity : Identity) (setup : Setup)
  /-- List the names that someone sees in tiers. -/
  | view (identity : Identity) (tiers : List Tier) (setup : Setup)
  /-- Answer commands, one per line. -/
  | serve (setup : Setup)
deriving Repr, DecidableEq, Inhabited

inductive Refusal where
  /-- It asks for help. -/
  | help
  /-- It is not understood. -/
  | usage
deriving Repr, DecidableEq, Inhabited

/-! ## Options -/

abbrev Given := List (String × String)

/-- An argument that starts with two minus signs: the name of an option and a value after `=`. -/
def splitLong (cs : List Char) : String × Option String :=
  let name := String.ofList (cs.takeWhile (· != '='))
  match cs.dropWhile (· != '=') with
  | _ :: value => (name, some (String.ofList value))
  | [] => (name, none)

def isValue (arg : String) : Bool :=
  match arg.toList with
  | '-' :: _ :: _ => false
  | _ => true

def tiersOf? (filter : String) : Option (List Tier) :=
  if filter = "all" then some [.global, .shared, .personal, .core]
  else if filter = "global" then some [.global]
  else if filter = "shared" then some [.shared]
  else if filter = "private" then some [.personal]
  else if filter = "core" then some [.core]
  else none

/-- Whether an option can have a value. Only a filter of tiers is restricted. -/
def isFitting (name value : String) : Bool := name != "tier" || (tiersOf? value).isSome

/-- The options read so far with another one, which must be new and have a fitting value. -/
def addOption (given : Given) (name value : String) : Except Refusal Given :=
  if (given.lookup name).isSome || !isFitting name value then .error .usage
  else .ok (given ++ [(name, value)])

/-- Reads options with the given names; `given` are those already read. -/
def readOptions (names : List String) (given : Given) : List String → Except Refusal Given
  | [] => .ok given
  | arg :: rest =>
    match arg.toList with
    | ['-', '-'] => if rest.isEmpty then .ok given else .error .usage
    | '-' :: '-' :: long =>
      let (name, value) := splitLong long
      if name = "help" ∧ value = none then .error .help
      else if name ∉ names then .error .usage
      else
        match value, rest with
        | some value, rest =>
          match addOption given name value with
          | .ok given => readOptions names given rest
          | .error refusal => .error refusal
        | none, value :: rest =>
          if isValue value then
            match addOption given name value with
            | .ok given => readOptions names given rest
            | .error refusal => .error refusal
          else .error .usage
        | none, [] => .error .usage
    | '-' :: 'h' :: _ => .error .help
    | _ => .error .usage

def needed (given : Given) (name : String) : Except Refusal String :=
  match given.lookup name with
  | some value => .ok value
  | none => .error .usage

def setupNames : List String := ["store", "core-dir", "config"]

def setupOf (given : Given) : Setup :=
  { store := given.lookup "store", coreDir := given.lookup "core-dir"
    config := given.lookup "config" }

def hasHelp : List String → Bool
  | [] => true
  | [name] => name ∈ ["exec", "view", "serve", "help"]
  | _ => false

def isHelpOption (arg : String) : Bool :=
  arg == "--help" || ['-', 'h'].isPrefixOf arg.toList

/-- What a command line asks for. -/
def parse : List String → Except Refusal Request
  | "exec" :: rest => do
    let given ← readOptions (["program", "user", "server"] ++ setupNames) [] rest
    let program ← needed given "program"
    let user ← needed given "user"
    let server ← needed given "server"
    return .exec program { user, server } (setupOf given)
  | "view" :: rest => do
    let given ← readOptions (["user", "server", "tier"] ++ setupNames) [] rest
    match tiersOf? ((given.lookup "tier").getD "all") with
    | none => throw .usage
    | some tiers =>
      let user ← needed given "user"
      let server ← needed given "server"
      return .view { user, server } tiers (setupOf given)
  | "serve" :: rest => do
    let given ← readOptions setupNames [] rest
    return .serve (setupOf given)
  | "help" :: rest => .error (if hasHelp rest then .help else .usage)
  | arg :: _ => .error (if isHelpOption arg then .help else .usage)
  | [] => .error .usage

end DiceScript.Command
