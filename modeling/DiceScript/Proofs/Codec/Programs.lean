import DiceScript.Node.Codec
import DiceScript.Proofs.Codec.Records

/-!
# Programs read back

A node is written as an object with its kind and every field of the kind, so it is read with each
field in its place, and each field is read as what was written. How deep the document is does not
matter here: a node is read whole, and only whether it may be read depends on its depth.

- `Node.node_read_toJson` — a written node is read as that node.
- `Node.faithful_toJson` — hence the codec of programs is faithful.
-/

namespace DiceScript

/-! ## Names -/

@[simp] theorem Tier.ofJson?_toJson (scope : Json.Scope) (t : Tier) :
    Tier.ofJson? scope t.toJson = some t := by
  cases t <;> rfl

@[simp] theorem BinaryOp.ofName?_name (op : BinaryOp) : BinaryOp.ofName? op.name = some op := by
  cases op <;> decide

@[simp] theorem UnaryOp.ofName?_name (op : UnaryOp) : UnaryOp.ofName? op.name = some op := by
  cases op <;> decide

@[simp] theorem DieForm.ofName?_name (form : DieForm) :
    DieForm.ofName? form.name = some form := by
  cases form <;> decide

namespace Node

/-! ## Fields -/

theorem nodup_fieldNames (kind : String) : (fieldNames kind).Nodup := by
  unfold fieldNames
  split <;> decide

theorem kind_notMem_fieldNames (kind : String) : "kind" ∉ fieldNames kind := by
  unfold fieldNames
  split <;> decide

theorem readItems_eq_map (items : List Json) : readItems items = items.map read := by
  induction items with
  | nil => rfl
  | cons j rest ih => rw [readItems, ih, List.map_cons]

theorem readMembers_eq_map (members : List (String × Json)) :
    readMembers members = members.map fun m => (m.1, read m.2) := by
  induction members with
  | nil => rfl
  | cons m rest ih => rw [readMembers, ih, List.map_cons]

theorem readMembers_zip (names : List String) (values : List Json) :
    readMembers (names.zip values) = names.zip (values.map read) := by
  rw [readMembers_eq_map, List.zip_map_right]
  rfl

def record (kind : String) (values : List Json) : Json :=
  .obj (("kind", .str kind) :: (fieldNames kind).zip values)

theorem json_read (j : Json) : (read j).json = j := by
  cases j <;> simp [read]

/-- A record is read field by field. -/
theorem node_read_record {kind : String} {values : List Json}
    (hlength : (fieldNames kind).length = values.length) :
    (read (record kind values)).node = ofFields? kind (values.map fun v => some (read v)) := by
  have hpick : Json.pick (fieldNames kind) (("kind", read (.str kind)) ::
      (fieldNames kind).zip (values.map read)) = some (values.map fun v => some (read v)) := by
    rw [Json.pick_cons_of_notMem (kind_notMem_fieldNames kind),
      Json.pick_zip (nodup_fieldNames kind) (by simpa using hlength), List.map_map]
    rfl
  have hkind : (("kind", read (.str kind)) :: (fieldNames kind).zip (values.map read)).filter
      (·.1 == "kind") = [("kind", read (.str kind))] := by
    rw [List.filter_cons_of_pos (by simp), Json.filter_zip_of_notMem (kind_notMem_fieldNames kind)]
  have htag : kindOfTag? (read (.str kind)).json = some kind := by rw [json_read, kindOfTag?]
  unfold record
  rw [read, readMembers, readMembers_zip]
  dsimp only
  unfold ofMembers?
  rw [hkind]
  dsimp only
  rw [htag]
  show (Json.pick (fieldNames kind) _).bind _ = _
  rw [hpick]
  rfl

/-! ## Reading fields -/

namespace Reading

@[simp] theorem plain_read {α : Type} (f : Json → Option α) (j : Json) :
    plain f (some (read j)) = f j := by
  rw [plain, Json.required, Option.bind_some, json_read]

@[simp] theorem one_read (j : Json) : one (some (read j)) = (read j).node := rfl

@[simp] theorem many_read_arr (items : List Json) :
    many (some (read (.arr items))) = (readItems items).mapM Reading.node := by
  rw [many, Json.withDefault, read]

@[simp] theorem tier_read (t : Tier) : tier (some (read t.toJson)) = some t := by
  rw [tier, plain_read, Tier.ofJson?_toJson]

@[simp] theorem tierOrNone_read (t : Option Tier) :
    tierOrNone (some (read (tierJson t))) = some t := by
  rw [tierOrNone, Option.map_some, json_read]
  cases t with
  | none => rfl
  | some t => cases t <;> rfl

@[simp] theorem named_read {α : Type} (ofName? : String → Option α) (name : String) :
    named ofName? (some (read (.str name))) = ofName? name := by
  rw [named, plain_read]
  rfl

@[simp] theorem texts_read (ts : List String) : texts (some (read (textsJson ts))) = some ts := by
  rw [texts, Json.withDefault, json_read, textsJson]
  show (ts.map Json.str).mapM Json.toText? = some ts
  induction ts with
  | nil => rfl
  | cons t ts ih =>
    rw [List.map_cons, List.mapM_cons, ih]
    rfl

end Reading

/-! ## Nodes -/

/-- A node is written as an object with its kind in front. -/
theorem toJson_cons (n : Node) :
    ∃ kind fields, n.toJson = .obj (("kind", .str kind) :: fields) := by
  cases n <;> exact ⟨_, _, by rw [toJson]⟩

mutual

/-- A written node is read as that node. -/
theorem node_read_toJson (n : Node) : (read n.toJson).node = some n := by
  -- One case per kind: the document is a record of the kind, and each field is read as it was written.
  match n with
  | .integer value =>
    show (read (record "integer" [.int value.toInt])).node = _
    rw [node_read_record rfl]
    simp [ofFields?, Json.toInt64?, Number.fit?_toInt]
  | .float value =>
    show (read (record "float" [.float value])).node = _
    rw [node_read_record rfl]
    simp [ofFields?, Json.toFloat?]
  | .string value =>
    show (read (record "string" [.str value])).node = _
    rw [node_read_record rfl]
    simp [ofFields?, Json.toText?]
  | .boolean value =>
    show (read (record "boolean" [.bool value])).node = _
    rw [node_read_record rfl]
    simp [ofFields?, Json.toBool?]
  | .list items =>
    show (read (record "list" [.arr (itemsJson items)])).node = _
    rw [node_read_record rfl]
    simp [ofFields?, nodes_readItems items]
  | .identifier name =>
    show (read (record "identifier" [.str name])).node = _
    rw [node_read_record rfl]
    simp [ofFields?, Json.toText?]
  | .qualifiedIdentifier tier name =>
    show (read (record "qualified_identifier" [tier.toJson, .str name])).node = _
    rw [node_read_record rfl]
    simp [ofFields?, Json.toText?]
  | .group inner =>
    show (read (record "group" [inner.toJson])).node = _
    rw [node_read_record rfl]
    simp [ofFields?, node_read_toJson inner]
  | .binary op left right =>
    show (read (record "binary" [.str op.name, left.toJson, right.toJson])).node = _
    rw [node_read_record rfl]
    simp [ofFields?, node_read_toJson left, node_read_toJson right]
  | .unary op operand =>
    show (read (record "unary" [.str op.name, operand.toJson])).node = _
    rw [node_read_record rfl]
    simp [ofFields?, node_read_toJson operand]
  | .dice count sides form =>
    show (read (record "dice" [optionJson count, sides.toJson, .str form.name])).node = _
    rw [node_read_record rfl]
    simp [ofFields?, oneOrNone_optionJson count, node_read_toJson sides]
  | .block statements =>
    show (read (record "block" [.arr (itemsJson statements)])).node = _
    rw [node_read_record rfl]
    simp [ofFields?, nodes_readItems statements]
  | .assign name value =>
    show (read (record "assign" [.str name, value.toJson])).node = _
    rw [node_read_record rfl]
    simp [ofFields?, Json.toText?, node_read_toJson value]
  | .qualifiedAssign tier name value =>
    show (read (record "qualified_assign" [tier.toJson, .str name, value.toJson])).node = _
    rw [node_read_record rfl]
    simp [ofFields?, Json.toText?, node_read_toJson value]
  | .delete tier name =>
    show (read (record "delete" [tierJson tier, .str name])).node = _
    rw [node_read_record rfl]
    simp [ofFields?, Json.toText?]
  | .print value =>
    show (read (record "print" [value.toJson])).node = _
    rw [node_read_record rfl]
    simp [ofFields?, node_read_toJson value]
  | .branch condition consequent alternative =>
    show (read (record "if"
      [condition.toJson, .arr (itemsJson consequent), .arr (itemsJson alternative)])).node = _
    rw [node_read_record rfl]
    simp [ofFields?, node_read_toJson condition,
      nodes_readItems consequent, nodes_readItems alternative]
  | .whileLoop condition body =>
    show (read (record "while" [condition.toJson, .arr (itemsJson body)])).node = _
    rw [node_read_record rfl]
    simp [ofFields?, node_read_toJson condition, nodes_readItems body]
  | .doWhile body condition =>
    show (read (record "do_while" [.arr (itemsJson body), condition.toJson])).node = _
    rw [node_read_record rfl]
    simp [ofFields?, nodes_readItems body, node_read_toJson condition]
  | .define name params body tier =>
    show (read (record "define"
      [.str name, textsJson params, .arr (itemsJson body), tierJson tier])).node = _
    rw [node_read_record rfl]
    simp [ofFields?, Json.toText?, nodes_readItems body]
  | .call name tier args =>
    show (read (record "call" [.str name, tierJson tier, .arr (itemsJson args)])).node = _
    rw [node_read_record rfl]
    simp [ofFields?, Json.toText?, nodes_readItems args]

theorem nodes_readItems (items : List Node) :
    (readItems (itemsJson items)).mapM Reading.node = some items := by
  match items with
  | [] => rfl
  | n :: rest =>
    rw [itemsJson, readItems, List.mapM_cons, node_read_toJson n, nodes_readItems rest]
    rfl

theorem oneOrNone_optionJson (o : Option Node) :
    Reading.oneOrNone (some (read (optionJson o))) = some o := by
  match o with
  | none => rfl
  | some n =>
    -- A node is written as an object, so it is not taken for a missing one.
    obtain ⟨kind, fields, hn⟩ := toJson_cons n
    have hread := node_read_toJson n
    rw [optionJson, Reading.oneOrNone, json_read]
    rw [hn] at hread ⊢
    dsimp only
    rw [hread, Option.map_some]

end

/-- The codec of programs is faithful. -/
theorem faithful_toJson : Json.Faithful toJson ofJson? := by
  intro scope n
  have htag : hasTextTag n.toJson = true := by
    obtain ⟨kind, fields, hn⟩ := toJson_cons n
    rw [hn]
    rfl
  unfold ofJson?
  cases scope with
  | held => exact node_read_toJson n
  | direct room => rw [htag, Bool.and_true, node_read_toJson]

end Node

end DiceScript
