import DiceScript.Value.Basic
import DiceScript.Dict

/-! # Values as documents

A value is an object with its type under `type` and its payload under `value`, or an array of the
two. `undefined` has no payload.

A payload that stands behind its type is read as that type at once; one that stands in front is read
whole first. `Reading` carries what a part of the document can stand for in either scope.

- `toJson`, `ofJson?` — a value.
- `Bindings.toJson`, `Bindings.ofJson?` — a map from names to values.
-/

namespace DiceScript

namespace Function

def toJson (f : Function) : Json :=
  .obj [("name", .str f.name), ("params", Node.textsJson f.params),
    ("body", .arr (Node.itemsJson f.body)), ("tier", f.tier.toJson)]

def ofJson? (scope : Json.Scope) (j : Json) : Option Function :=
  match Json.toFields? ["name", "params", "body", "tier"] scope j with
  | some (inner, [name, params, body, tier]) => do
    let name ← Json.required Json.toText? name
    let params ← Json.required (Json.toTexts? inner) params
    let body ← Json.required (Json.toList? Node.ofJson? inner) body
    let tier ← Json.required (Tier.ofJson? inner) tier
    return { name, params, body, tier }
  | _ => none

end Function

namespace Value

/-! ## Writing -/

def tagged (type : ValueType) (payload : Json) : Json :=
  .obj [("type", .str type.name), ("value", payload)]

mutual

def toJson : Value → Json
  | .integer n => tagged .integer (.int n.toInt)
  | .float x => tagged .float (.float x)
  | .string s => tagged .string (.str s)
  | .boolean b => tagged .boolean (.bool b)
  | .list items => tagged .list (.arr (itemsJson items))
  | .function f => tagged .function f.toJson
  | .undefined => .obj [("type", .str ValueType.undefined.name)]

def itemsJson : List Value → List Json
  | [] => []
  | v :: rest => toJson v :: itemsJson rest

end

/-! ## Reading -/

/-- A part of a document and what it can stand for. -/
structure Reading where
  json : Json
  value : Json.Scope → Option Value
  values : Json.Scope → Option (List Value)

/-- The value of a type and a payload, which only `undefined` can do without. -/
def ofPayload? (scope : Json.Scope) (type : ValueType) (payload : Option Reading) : Option Value :=
  match type, payload with
  | .undefined, none => some .undefined
  | .undefined, some r =>
    match r.json with
    | .null => some .undefined
    | _ => none
  | .integer, some r => (Json.toInt64? r.json).map .integer
  | .float, some r => (Json.toFloat? r.json).map .float
  | .string, some r => (Json.toText? r.json).map .string
  | .boolean, some r => (Json.toBool? r.json).map .boolean
  | .list, some r => (r.values scope).map .list
  | .function, some r => (Function.ofJson? scope r.json).map .function
  | _, none => none

def payloadFirst {α : Type} : List (String × α) → Bool
  | [] => false
  | (name, _) :: rest =>
    if name = "type" then false else if name = "value" then true else payloadFirst rest

def ofMembers? (members : List (String × Reading)) (scope : Json.Scope) : Option Value :=
  match scope.enter?, Json.pick ["type", "value"] members with
  | some inner, some [some tag, payload] => do
    let type ← (Json.toName? inner tag.json).bind ValueType.ofName?
    match payload with
    | some r =>
      if payloadFirst members then
        if inner.admits r.json then ofPayload? .held type payload else none
      else ofPayload? inner type payload
    | none => ofPayload? inner type none
  | _, _ => none

/-- The type that stands in front in an array: its name, or, in a part that has been read whole,
its number as well. -/
def typeOfTag? (scope : Json.Scope) : Json → Option ValueType
  | .str name => ValueType.ofName? name
  | .int n =>
    match scope with
    | .held => if 0 ≤ n then ValueType.all[n.toNat]? else none
    | .direct _ => none
  | _ => none

def ofItems? (items : List Reading) (scope : Json.Scope) : Option Value :=
  match scope.enter?, items with
  | some inner, [tag, payload] => do
    let type ← typeOfTag? inner tag.json
    ofPayload? inner type (some payload)
  | _, _ => none

mutual

def read : Json → Reading
  | .arr items =>
    let parts := readItems items
    { json := .arr items
      value := ofItems? parts
      values := fun scope => scope.enter?.bind fun inner => parts.mapM (·.value inner) }
  | .obj members =>
    let parts := readMembers members
    { json := .obj members, value := ofMembers? parts, values := fun _ => none }
  | j => { json := j, value := fun _ => none, values := fun _ => none }

def readItems : List Json → List Reading
  | [] => []
  | j :: rest => read j :: readItems rest

def readMembers : List (String × Json) → List (String × Reading)
  | [] => []
  | (name, j) :: rest => (name, read j) :: readMembers rest

end

def ofJson? (scope : Json.Scope) (j : Json) : Option Value := (read j).value scope

end Value

/-! ## Maps of values -/

def Dict.toJson {α : Type} (write : α → Json) (d : Dict α) : Json :=
  .obj (d.entries.map fun (name, v) => (name, write v))

/-- The map of a document; of two values for one name the later wins. -/
def Dict.ofJson? {α : Type} (read : Json.Scope → Json → Option α) (scope : Json.Scope) (j : Json) :
    Option (Dict α) :=
  (Json.toMembers? read scope j).map Dict.ofList

abbrev Bindings := Dict Value

def Bindings.toJson (b : Bindings) : Json := Dict.toJson Value.toJson b

def Bindings.ofJson? (scope : Json.Scope) (j : Json) : Option Bindings :=
  Dict.ofJson? Value.ofJson? scope j

end DiceScript
