import DiceScript.Json.Basic
import DiceScript.Number.Integer

/-! # Reading documents as records

What a document means depends on the type it is read as. The rules shared by all types:

- A record is an object with the record's fields as members, in any order and with unknown members
  ignored, or an array of the fields in their declared order. A field given twice is refused, and so
  is an array that is too long. A field may be required, have a default, or be optional; only an
  optional field may be `null`.
- A plain name is a string, or an object whose one member has that name and no payload.
- At most 127 arrays and objects are open at once. Members that are ignored do not count, unless
  they are part of something that has to be read whole before its type is known.

A `Scope` says which of the two ways of counting holds at a place in the document.
-/

namespace DiceScript.Json

/-! ## Scopes -/

/-- How much of a document may still be opened. -/
inductive Scope where
  /-- Read as it is met: `room` more arrays and objects may be opened. -/
  | direct (room : Nat)
  /-- Part of something that has been read whole. -/
  | held
deriving Repr, DecidableEq

def Scope.top : Scope := .direct 127

/-- A document that is read without a bound on its depth. -/
def Scope.unbounded (j : Json) : Scope := .direct j.depth

/-- The scope inside an array or an object, if one may be opened. -/
def Scope.enter? : Scope → Option Scope
  | .direct 0 => none
  | .direct (room + 1) => some (.direct room)
  | .held => some .held

/-- Whether a part of a document can be read whole. -/
def Scope.admits : Scope → Json → Bool
  | .direct room, j => j.depth ≤ room && j.isReadable
  | .held, _ => true

/-! ## Plain values -/

def toBool? : Json → Option Bool
  | .bool b => some b
  | _ => none

def toText? : Json → Option String
  | .str s => some s
  | _ => none

def toInt64? : Json → Option Int64
  | .int n => Number.fit? n
  | _ => none

def toInt32? : Json → Option Int64
  | .int n => if -2147483648 ≤ n ∧ n < 2147483648 then some (Int64.ofInt n) else none
  | _ => none

def toUInt64? : Json → Option UInt64
  | .int n => if 0 ≤ n ∧ n < UInt64.size then some (UInt64.ofNat n.toNat) else none
  | _ => none

/-- A float; an integer stands for the float nearest to it. -/
def toFloat? : Json → Option Float
  | .int n => some (Float.ofInt n)
  | .float x => some x
  | _ => none

/-- The text of a plain name. Where the document has been read whole an empty object counts as no
payload, too. -/
def toName? (scope : Scope) : Json → Option String
  | .str s => some s
  | .obj [(name, payload)] =>
    match scope.enter?, payload with
    | some _, .null => some name
    | some .held, .obj [] => some name
    | _, _ => none
  | _ => none

def toItems? (scope : Scope) : Json → Option (Scope × List Json)
  | .arr items => scope.enter?.map fun inner => (inner, items)
  | _ => none

def toList? {α : Type} (read : Scope → Json → Option α) (scope : Scope) (j : Json) :
    Option (List α) :=
  match toItems? scope j with
  | some (inner, items) => items.mapM (read inner)
  | none => none

def toTexts? (scope : Scope) (j : Json) : Option (List String) :=
  toList? (fun _ => toText?) scope j

def toMembers? {α : Type} (read : Scope → Json → Option α) (scope : Scope) :
    Json → Option (List (String × α))
  | .obj members =>
    match scope.enter? with
    | some inner => members.mapM fun (name, j) => (read inner j).map fun v => (name, v)
    | none => none
  | _ => none

/-! ## Fields -/

section Fields

variable {α β : Type}

/-- The members with the given names, in the order of the names; none when one is repeated. -/
def pick (names : List String) (members : List (String × α)) : Option (List (Option α)) :=
  names.mapM fun name =>
    match members.filter (·.1 == name) with
    | [] => some none
    | [(_, v)] => some (some v)
    | _ => none

/-- Items in the places of the given names; none when there are more items than names. -/
def place (names : List String) (items : List α) : Option (List (Option α)) :=
  if items.length ≤ names.length then
    some (items.map some ++ List.replicate (names.length - items.length) none)
  else none

def required (read : α → Option β) (field : Option α) : Option β := field.bind read

def withDefault (value : β) (read : α → Option β) : Option α → Option β
  | none => some value
  | some field => read field

end Fields

def optional {β : Type} (read : Json → Option β) : Option Json → Option (Option β)
  | none => some none
  | some .null => some none
  | some field => (read field).map some

/-- The fields of a record, with the scope inside it. -/
def toFields? (names : List String) (scope : Scope) : Json → Option (Scope × List (Option Json))
  | .obj members =>
    match scope.enter?, pick names members with
    | some inner, some fields => some (inner, fields)
    | _, _ => none
  | .arr items =>
    match scope.enter?, place names items with
    | some inner, some fields => some (inner, fields)
    | _, _ => none
  | _ => none

end DiceScript.Json
