/-! # JSON documents

A document keeps the order of its members and every repetition of a name, since whether a
repetition is allowed depends on what the document is read as. An integer token stays an integer as
long as it fits 64 bits, signed or unsigned; every other number is a float.

Some tokens are well formed and denote nothing: a number beyond the range of floats, a string with
half of a surrogate pair, an object with such a name. They are kept as `unreadable`, because a part
that nobody looks at may hold them.

- `depth` — how many arrays and objects are open at once.
- `isReadable` — nothing in the document is `unreadable`.
-/

namespace DiceScript

/-- A JSON document. -/
inductive Json where
  | null
  | bool (b : Bool)
  | int (n : Int)
  | float (x : Float)
  | str (s : String)
  | arr (items : List Json)
  | obj (members : List (String × Json))
  | unreadable

instance : Inhabited Json := ⟨.null⟩

namespace Json

mutual

/-- The greatest number of arrays and objects that are open at once. -/
def depth : Json → Nat
  | .arr items => depthItems items + 1
  | .obj members => depthMembers members + 1
  | _ => 0

def depthItems : List Json → Nat
  | [] => 0
  | j :: rest => max j.depth (depthItems rest)

def depthMembers : List (String × Json) → Nat
  | [] => 0
  | (_, j) :: rest => max j.depth (depthMembers rest)

end

mutual

/-- Whether every token denotes something. -/
def isReadable : Json → Bool
  | .arr items => itemsReadable items
  | .obj members => membersReadable members
  | .unreadable => false
  | _ => true

def itemsReadable : List Json → Bool
  | [] => true
  | j :: rest => j.isReadable && itemsReadable rest

def membersReadable : List (String × Json) → Bool
  | [] => true
  | (_, j) :: rest => j.isReadable && membersReadable rest

end

/-- The value of `name` in a list of members, the first one if it is repeated. -/
def member? (members : List (String × Json)) (name : String) : Option Json :=
  members.lookup name

def get? : Json → String → Option Json
  | .obj members, name => member? members name
  | _, _ => none

end Json

end DiceScript
