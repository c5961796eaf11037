import DiceScript.Json.Record

/-! # Tiers, identities and namespaces

A variable lives in one of four tiers. `core` holds the installed library and is read-only to
programs, `global` belongs to everyone, `shared` to the users of one server, `personal` to one user
on one server. A tier seen by an identity is a namespace: one concrete set of names.
-/

namespace DiceScript

/-- Where a variable lives. -/
inductive Tier where
  | core
  | global
  | shared
  | personal
deriving Repr, DecidableEq, Inhabited

namespace Tier

def all : List Tier := [.core, .global, .shared, .personal]

def qualifier : Tier → String
  | .core => "core"
  | .global => "global"
  | .shared => "our"
  | .personal => "my"

def name : Tier → String
  | .core => "core"
  | .global => "global"
  | .shared => "shared"
  | .personal => "private"

def ofName? (s : String) : Option Tier :=
  if s = "core" then some .core
  else if s = "global" then some .global
  else if s = "shared" ∨ s = "our" then some .shared
  else if s = "private" ∨ s = "my" then some .personal
  else none

def index : Tier → Nat
  | .core => 0
  | .global => 1
  | .shared => 2
  | .personal => 3

def toJson (t : Tier) : Json := .str t.name

def ofJson? (scope : Json.Scope) (j : Json) : Option Tier := (Json.toName? scope j).bind ofName?

end Tier

/-- Who runs a program, and where. -/
structure Identity where
  user : String
  server : String
deriving Repr, DecidableEq, Inhabited

namespace Identity

def toJson (i : Identity) : Json := .obj [("user", .str i.user), ("server", .str i.server)]

def ofJson? (scope : Json.Scope) (j : Json) : Option Identity :=
  match Json.toFields? ["user", "server"] scope j with
  | some (_, [user, server]) => do
    let user ← Json.required Json.toText? user
    let server ← Json.required Json.toText? server
    return { user, server }
  | _ => none

end Identity

/-- One concrete set of names. -/
inductive Namespace where
  | core
  | global
  | shared (server : String)
  | personal (server user : String)
deriving Repr, DecidableEq, Inhabited

namespace Namespace

/-- The namespace that an identity sees as a tier. -/
def resolve (t : Tier) (i : Identity) : Namespace :=
  match t with
  | .core => .core
  | .global => .global
  | .shared => .shared i.server
  | .personal => .personal i.server i.user

def tier : Namespace → Tier
  | .core => .core
  | .global => .global
  | .shared _ => .shared
  | .personal _ _ => .personal

end Namespace

end DiceScript
