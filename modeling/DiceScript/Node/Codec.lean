import DiceScript.Node.Basic

/-! # Programs as documents

A node is an object with its kind under `kind` and its fields under their names, or an array of the
kind and the fields in their order. Lists may be left out when empty, and so may absent parts.

Since the kind may stand anywhere in the object, a node is read whole before its kind is known, with
everything in it. `Reading` carries, for a part of such a document, the node and the list of nodes
that it can stand for, so that a field is only looked up and never read again.

- `toJson` — the document of a node, with every field written.
- `ofJson?` — the node of a document.
-/

namespace DiceScript.Node

/-! ## Writing -/

def tierJson : Option Tier → Json
  | some t => t.toJson
  | none => .null

def textsJson (texts : List String) : Json := .arr (texts.map .str)

mutual

def toJson : Node → Json
  | .integer value => .obj [("kind", .str "integer"), ("value", .int value.toInt)]
  | .float value => .obj [("kind", .str "float"), ("value", .float value)]
  | .string value => .obj [("kind", .str "string"), ("value", .str value)]
  | .boolean value => .obj [("kind", .str "boolean"), ("value", .bool value)]
  | .list items => .obj [("kind", .str "list"), ("items", .arr (itemsJson items))]
  | .identifier name => .obj [("kind", .str "identifier"), ("name", .str name)]
  | .qualifiedIdentifier tier name =>
    .obj [("kind", .str "qualified_identifier"), ("tier", tier.toJson), ("name", .str name)]
  | .group inner => .obj [("kind", .str "group"), ("inner", toJson inner)]
  | .binary op left right =>
    .obj [("kind", .str "binary"), ("op", .str op.name), ("left", toJson left),
      ("right", toJson right)]
  | .unary op operand =>
    .obj [("kind", .str "unary"), ("op", .str op.name), ("operand", toJson operand)]
  | .dice count sides form =>
    .obj [("kind", .str "dice"), ("count", optionJson count), ("sides", toJson sides),
      ("form", .str form.name)]
  | .block statements => .obj [("kind", .str "block"), ("statements", .arr (itemsJson statements))]
  | .assign name value => .obj [("kind", .str "assign"), ("name", .str name), ("value", toJson value)]
  | .qualifiedAssign tier name value =>
    .obj [("kind", .str "qualified_assign"), ("tier", tier.toJson), ("name", .str name),
      ("value", toJson value)]
  | .delete tier name =>
    .obj [("kind", .str "delete"), ("tier", tierJson tier), ("name", .str name)]
  | .print value => .obj [("kind", .str "print"), ("value", toJson value)]
  | .branch condition consequent alternative =>
    .obj [("kind", .str "if"), ("condition", toJson condition),
      ("then", .arr (itemsJson consequent)), ("otherwise", .arr (itemsJson alternative))]
  | .whileLoop condition body =>
    .obj [("kind", .str "while"), ("condition", toJson condition), ("body", .arr (itemsJson body))]
  | .doWhile body condition =>
    .obj [("kind", .str "do_while"), ("body", .arr (itemsJson body)),
      ("condition", toJson condition)]
  | .define name params body tier =>
    .obj [("kind", .str "define"), ("name", .str name), ("params", textsJson params),
      ("body", .arr (itemsJson body)), ("tier", tierJson tier)]
  | .call name tier args =>
    .obj [("kind", .str "call"), ("name", .str name), ("tier", tierJson tier),
      ("args", .arr (itemsJson args))]

def itemsJson : List Node → List Json
  | [] => []
  | n :: rest => toJson n :: itemsJson rest

def optionJson : Option Node → Json
  | some n => toJson n
  | none => .null

end

/-! ## Reading -/

def kinds : List String :=
  ["integer", "float", "string", "boolean", "list", "identifier", "qualified_identifier", "group",
    "binary", "unary", "dice", "block", "assign", "qualified_assign", "delete", "print", "if",
    "while", "do_while", "define", "call"]

def fieldNames (kind : String) : List String :=
  match kind with
  | "integer" | "float" | "string" | "boolean" => ["value"]
  | "list" => ["items"]
  | "identifier" => ["name"]
  | "qualified_identifier" => ["tier", "name"]
  | "group" => ["inner"]
  | "binary" => ["op", "left", "right"]
  | "unary" => ["op", "operand"]
  | "dice" => ["count", "sides", "form"]
  | "block" => ["statements"]
  | "assign" => ["name", "value"]
  | "qualified_assign" => ["tier", "name", "value"]
  | "delete" => ["tier", "name"]
  | "print" => ["value"]
  | "if" => ["condition", "then", "otherwise"]
  | "while" => ["condition", "body"]
  | "do_while" => ["body", "condition"]
  | "define" => ["name", "params", "body", "tier"]
  | "call" => ["name", "tier", "args"]
  | _ => []

/-- A part of a document and what it can stand for in a program. -/
structure Reading where
  json : Json
  node : Option Node
  nodes : Option (List Node)

namespace Reading

def one (field : Option Reading) : Option Node := Json.required Reading.node field

def oneOrNone : Option Reading → Option (Option Node)
  | none => some none
  | some r =>
    match r.json with
    | .null => some none
    | _ => r.node.map some

def many (field : Option Reading) : Option (List Node) := Json.withDefault [] Reading.nodes field

def plain {α : Type} (read : Json → Option α) (field : Option Reading) : Option α :=
  Json.required (fun r => read r.json) field

def tier (field : Option Reading) : Option Tier := plain (Tier.ofJson? .held) field

def tierOrNone (field : Option Reading) : Option (Option Tier) :=
  Json.optional (Tier.ofJson? .held) (field.map Reading.json)

def texts (field : Option Reading) : Option (List String) :=
  Json.withDefault [] (fun r => Json.toTexts? .held r.json) field

def named {α : Type} (ofName? : String → Option α) (field : Option Reading) : Option α :=
  plain (fun j => (Json.toName? .held j).bind ofName?) field

end Reading

open Reading in
/-- The node of a kind and its fields, in their order. -/
def ofFields? (kind : String) (fields : List (Option Reading)) : Option Node :=
  match kind, fields with
  | "integer", [value] => return .integer (← plain Json.toInt64? value)
  | "float", [value] => return .float (← plain Json.toFloat? value)
  | "string", [value] => return .string (← plain Json.toText? value)
  | "boolean", [value] => return .boolean (← plain Json.toBool? value)
  | "list", [items] => return .list (← many items)
  | "identifier", [name] => return .identifier (← plain Json.toText? name)
  | "qualified_identifier", [t, name] =>
    return .qualifiedIdentifier (← tier t) (← plain Json.toText? name)
  | "group", [inner] => return .group (← one inner)
  | "binary", [op, left, right] =>
    return .binary (← named BinaryOp.ofName? op) (← one left) (← one right)
  | "unary", [op, operand] => return .unary (← named UnaryOp.ofName? op) (← one operand)
  | "dice", [count, sides, form] =>
    return .dice (← oneOrNone count) (← one sides) (← named DieForm.ofName? form)
  | "block", [statements] => return .block (← many statements)
  | "assign", [name, value] => return .assign (← plain Json.toText? name) (← one value)
  | "qualified_assign", [t, name, value] =>
    return .qualifiedAssign (← tier t) (← plain Json.toText? name) (← one value)
  | "delete", [t, name] => return .delete (← tierOrNone t) (← plain Json.toText? name)
  | "print", [value] => return .print (← one value)
  | "if", [condition, consequent, alternative] =>
    return .branch (← one condition) (← many consequent) (← many alternative)
  | "while", [condition, body] => return .whileLoop (← one condition) (← many body)
  | "do_while", [body, condition] => return .doWhile (← many body) (← one condition)
  | "define", [name, params, body, t] =>
    return .define (← plain Json.toText? name) (← texts params) (← many body) (← tierOrNone t)
  | "call", [name, t, args] =>
    return .call (← plain Json.toText? name) (← tierOrNone t) (← many args)
  | _, _ => none

/-- The kind that a tag names. In a part that has been read whole the number of a kind will do. -/
def kindOfTag? : Json → Option String
  | .str kind => some kind
  | .int n => if 0 ≤ n then kinds[n.toNat]? else none
  | _ => none

def ofMembers? (members : List (String × Reading)) : Option Node :=
  match members.filter (·.1 == "kind") with
  | [(_, tag)] => do
    let kind ← kindOfTag? tag.json
    ofFields? kind (← Json.pick (fieldNames kind) members)
  | _ => none

def ofItems? : List Reading → Option Node
  | [] => none
  | tag :: rest => do
    let kind ← kindOfTag? tag.json
    ofFields? kind (← Json.place (fieldNames kind) rest)

mutual

/-- What a part of a document that has been read whole can stand for. -/
def read : Json → Reading
  | .arr items =>
    let parts := readItems items
    { json := .arr items, node := ofItems? parts, nodes := parts.mapM Reading.node }
  | .obj members => { json := .obj members, node := ofMembers? (readMembers members), nodes := none }
  | j => { json := j, node := none, nodes := none }

def readItems : List Json → List Reading
  | [] => []
  | j :: rest => read j :: readItems rest

def readMembers : List (String × Json) → List (String × Reading)
  | [] => []
  | (name, j) :: rest => (name, read j) :: readMembers rest

end

def hasTextTag : Json → Bool
  | .obj members =>
    match members.lookup "kind" with
    | some (.str _) => true
    | _ => false
  | .arr (.str _ :: _) => true
  | _ => false

def ofJson? (scope : Json.Scope) (j : Json) : Option Node :=
  match scope with
  | .held => (read j).node
  | .direct _ => if scope.admits j && hasTextTag j then (read j).node else none

end DiceScript.Node
