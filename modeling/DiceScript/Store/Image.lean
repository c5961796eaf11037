import DiceScript.Store.Basic

/-! # Images of a store

What a medium keeps: the content of a store under the name of its schema. An image of another schema
can be read and written, but not restored.
-/

namespace DiceScript

/-- The content of a store under a schema. -/
structure Image where
  schema : String
  store : Store

namespace Image

def currentSchema : String := "dicelang-store.v1"

def entryCount (i : Image) : Nat := i.store.entryCount

def toJson (i : Image) : Json :=
  .obj [("schemaVersion", .str i.schema),
    ("core", i.store.core.toJson),
    ("global", i.store.global.toJson),
    ("shared", i.store.shared.toJson Bindings.toJson),
    ("private", i.store.personal.toJson (Dict.toJson Bindings.toJson))]

def ofJson? (scope : Json.Scope) (j : Json) : Option Image :=
  match Json.toFields? ["schemaVersion", "core", "global", "shared", "private"] scope j with
  | some (inner, [schema, core, global, shared, personal]) => do
    let schema ← Json.required Json.toText? schema
    let core ← Json.withDefault {} (Bindings.ofJson? inner) core
    let global ← Json.withDefault {} (Bindings.ofJson? inner) global
    let shared ← Json.withDefault {} (Dict.ofJson? Bindings.ofJson? inner) shared
    let personal ← Json.withDefault {} (Dict.ofJson? (Dict.ofJson? Bindings.ofJson?) inner) personal
    return { schema, store := { core, global, shared, personal } }
  | _ => none

end Image

def Store.image (s : Store) : Image := ⟨Image.currentSchema, s⟩

end DiceScript
