import DiceScript.Cause
import DiceScript.Value.Codec

/-! # The store

Every variable of every user: bindings for the core and global tiers, bindings per server for the
shared tier, bindings per server and user for the personal tier.

- `get`, `put`, `drop`, `keys` — one namespace at a time; the core tier refuses `put` and `drop`.
- `installCore`, `replaceCore` — the privileged ways into the core tier, which no program has.

Dropping the last name of a server or a user drops the entry of the server or the user, too, so a
store that has only been put to and dropped from has no empty entries.
-/

namespace DiceScript

structure Store where
  core : Bindings := {}
  global : Bindings := {}
  /-- By server. -/
  shared : Dict Bindings := {}
  /-- By server, then by user. -/
  personal : Dict (Dict Bindings) := {}

namespace Store

instance : Inhabited Store := ⟨{}⟩

def bindings? (s : Store) : Namespace → Option Bindings
  | .core => some s.core
  | .global => some s.global
  | .shared server => s.shared.get? server
  | .personal server user => (s.personal.get? server).bind (·.get? user)

def get? (s : Store) (ns : Namespace) (name : String) : Option Value :=
  (s.bindings? ns).bind (·.get? name)

/-- The value of a name in a namespace, `undefined` when it is not bound. -/
def get (s : Store) (ns : Namespace) (name : String) : Value :=
  (s.get? ns name).getD .undefined

def keys (s : Store) (ns : Namespace) : List String :=
  match s.bindings? ns with
  | some b => b.keys
  | none => []

def put (s : Store) (ns : Namespace) (name : String) (v : Value) : Except Cause Store :=
  match ns with
  | .core => .error (.readOnly name)
  | .global => .ok { s with global := s.global.insert name v }
  | .shared server =>
    let old := (s.shared.get? server).getD {}
    .ok { s with shared := s.shared.insert server (old.insert name v) }
  | .personal server user =>
    let users := (s.personal.get? server).getD {}
    let old := (users.get? user).getD {}
    .ok { s with personal := s.personal.insert server (users.insert user (old.insert name v)) }

/-- A map with the entry of `key` changed, and gone when nothing is left of it. -/
def prune {α : Type} (d : Dict (Dict α)) (key : String) (rest : Dict α) : Dict (Dict α) :=
  if rest.isEmpty then d.erase key else d.insert key rest

/-- Removes a name from a namespace and yields what it was bound to. -/
def drop (s : Store) (ns : Namespace) (name : String) : Except Cause (Value × Store) :=
  match ns with
  | .core => .error (.readOnly name)
  | .global => .ok (s.get ns name, { s with global := s.global.erase name })
  | .shared server =>
    match s.shared.get? server with
    | none => .ok (.undefined, s)
    | some old => .ok (s.get ns name, { s with shared := prune s.shared server (old.erase name) })
  | .personal server user =>
    match s.personal.get? server with
    | none => .ok (.undefined, s)
    | some users =>
      let users' := match users.get? user with
        | none => users
        | some old => prune users user (old.erase name)
      .ok (s.get ns name, { s with personal := prune s.personal server users' })

def installCore (s : Store) (name : String) (v : Value) : Store :=
  { s with core := s.core.insert name v }

/-- Puts a library in the place of the whole core tier. -/
def replaceCore (s : Store) (library : Bindings) : Store := { s with core := library }

def entryCount (s : Store) : Nat :=
  s.core.size + s.global.size + s.shared.total Dict.size +
    s.personal.total (Dict.total Dict.size)

end Store

end DiceScript
