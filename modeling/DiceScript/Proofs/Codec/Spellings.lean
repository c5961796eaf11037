import DiceScript.Proofs.Codec.Texts

/-!
# Spellings of programs

The document of a program can be spelled in many ways, at any of the nodes in it: the members of an
object in another order, with members that say nothing about its kind, without empty lists and absent
parts, with tiers by the words that select them, or an array of the kind and the fields in their order.
All spellings of a program are read as that program. An object and an array are told apart only where
fields are put in their places, so a kind is looked at once, whatever its spelling.

- `Node.Spells` — a document is a spelling of a node.
- `Node.node_read_of_form` — objects and arrays are read field by field.
- `spellings_are_read_alike` — every spelling of a program is read as that program.
-/

namespace DiceScript

/-! ## Members in any order -/

namespace Json

variable {α β : Type} {names : List String} {members members' others : List (String × α)}
  {fields : List (Option α)}

/-- The fields that are there, under their names. -/
def present (names : List String) (fields : List (Option α)) : List (String × α) :=
  (names.zip fields).filterMap fun (name, field) => field.map (name, ·)

theorem map_present (f : α → β) (names : List String) (fields : List (Option α)) :
    (present names fields).map (fun m => (m.1, f m.2)) = present names (fields.map (Option.map f)) := by
  unfold present
  rw [List.map_filterMap, List.zip_map_right, List.filterMap_map]
  congr 1
  funext ⟨name, field⟩
  cases field <;> rfl

theorem mem_of_mem_present {m : String × α} (h : m ∈ present names fields) : m.1 ∈ names := by
  obtain ⟨⟨name, field⟩, hzip, hm⟩ := List.mem_filterMap.mp h
  obtain ⟨v, -, rfl⟩ := Option.map_eq_some_iff.mp hm
  exact (List.of_mem_zip hzip).1

theorem filter_of_notMem {name : String} (h : ∀ m ∈ members, m.1 ≠ name) :
    members.filter (·.1 == name) = [] := by
  rw [List.filter_eq_nil_iff]
  intro m hm heq
  exact h m hm (beq_iff_eq.mp heq)

/-- The member with a name is found in any order of the members. -/
theorem single_of_perm {name : String} {field : Option α} (h : members.Perm members')
    (hfield : single name members' = some field) : single name members = some field := by
  have hfilter : (members.filter (·.1 == name)).Perm (members'.filter (·.1 == name)) := h.filter _
  unfold single at hfield ⊢
  split at hfield
  · rename_i hnone
    rw [hnone] at hfilter
    rw [hfilter.eq_nil]
    exact hfield
  · rename_i k v hone
    rw [hone] at hfilter
    rw [List.perm_singleton.mp hfilter]
    exact hfield
  · cases hfield

theorem pick_of_perm (h : members.Perm members') (hfields : pick names members' = some fields) :
    pick names members = some fields := by
  induction names generalizing fields with
  | nil => exact hfields
  | cons name names ih =>
    rw [pick_cons] at hfields ⊢
    obtain ⟨field, hfield, hrest⟩ := Option.bind_eq_some_iff.mp hfields
    obtain ⟨rest, hpick, rfl⟩ := Option.map_eq_some_iff.mp hrest
    rw [single_of_perm h hfield, ih hpick]
    rfl

/-- Members of other names are passed over. -/
theorem pick_append_of_notMem (h : ∀ m ∈ others, m.1 ∉ names) :
    pick names (members ++ others) = pick names members := by
  induction names with
  | nil => rfl
  | cons name names ih =>
    have hsingle : single name (members ++ others) = single name members := by
      unfold single
      have hothers : others.filter (·.1 == name) = [] := by
        refine filter_of_notMem fun m hm => ?_
        rintro rfl
        exact h m hm List.mem_cons_self
      rw [List.filter_append, hothers, List.append_nil]
    rw [pick_cons, pick_cons, hsingle, ih fun m hm hname => h m hm (List.mem_cons_of_mem _ hname)]

/-- Fields under their names are found in their places, and those that are left out are missed. -/
theorem pick_present (hn : names.Nodup) (hlength : names.length = fields.length) :
    pick names (present names fields) = some fields := by
  induction names generalizing fields with
  | nil =>
    obtain rfl : fields = [] := List.length_eq_zero_iff.mp hlength.symm
    rfl
  | cons name names ih =>
    obtain ⟨hname, hnames⟩ := List.nodup_cons.mp hn
    cases fields with
    | nil => cases hlength
    | cons field fields =>
      have hrest := ih hnames (Nat.succ.inj hlength)
      have hapart : (present names fields).filter (·.1 == name) = [] := by
        refine filter_of_notMem fun m hm => ?_
        rintro rfl
        exact hname (mem_of_mem_present hm)
      cases field with
      | none =>
        have hskip : present (name :: names) (none :: fields) = present names fields := rfl
        rw [hskip, pick_cons, hrest, single, hapart]
        rfl
      | some v =>
        have hfront : present (name :: names) (some v :: fields) =
            (name, v) :: present names fields := rfl
        rw [hfront, pick_cons, pick_cons_of_notMem hname, hrest, single,
          List.filter_cons_of_pos (by simp), hapart]
        rfl

end Json

namespace Node

/-! ## Spellings -/

/-- What may stand for a field: a document, or nothing when the field is left out. -/
abbrev Field := Option Json → Prop

namespace Field

def plain (j : Json) : Field := fun doc => doc = some j

/-- A tier, under its name or the word that selects it. -/
def tier (t : Tier) : Field := fun doc => doc = some (.str t.name) ∨ doc = some (.str t.qualifier)

def absent : Field := fun doc => doc = some .null ∨ doc = none

def tierOrNone : Option Tier → Field
  | some t => tier t
  | none => absent

def one (spells : Json → Prop) : Field := fun doc => ∃ j, doc = some j ∧ spells j

def many (items : List Node) (spells : List Json → Prop) : Field := fun doc =>
  (∃ docs, doc = some (.arr docs) ∧ spells docs) ∨ items = [] ∧ doc = none

def texts (ts : List String) : Field := fun doc => doc = some (textsJson ts) ∨ ts = [] ∧ doc = none

end Field

/-- A kind and what stands for its fields, as an object or as an array. -/
inductive Form (kind : String) (docs : List (Option Json)) : Json → Prop where
  /-- The kind and the fields that are not left out, in any order among other members. -/
  | object {members others : List (String × Json)}
      (horder : members.Perm
        (("kind", .str kind) :: Json.present (fieldNames kind) docs ++ others))
      (hothers : ∀ m ∈ others, m.1 ≠ "kind" ∧ m.1 ∉ fieldNames kind) :
      Form kind docs (.obj members)
  /-- The kind and the fields in their order; fields may be left out at the end only. -/
  | array {values : List Json} {missing : Nat}
      (hvalues : docs = values.map some ++ List.replicate missing none) :
      Form kind docs (.arr (.str kind :: values))

/-- A document of a kind, with something that may stand for each of its fields. -/
def SpellsRecord (kind : String) (fields : List Field) (j : Json) : Prop :=
  ∃ docs, List.Forall₂ (fun field doc => field doc) fields docs ∧ Form kind docs j

mutual

/-- A document is a spelling of a node. -/
def Spells : Node → Json → Prop
  | .integer value => SpellsRecord "integer" [.plain (.int value.toInt)]
  | .float value => SpellsRecord "float" [.plain (.float value)]
  | .string value => SpellsRecord "string" [.plain (.str value)]
  | .boolean value => SpellsRecord "boolean" [.plain (.bool value)]
  | .list items => SpellsRecord "list" [.many items (SpellsItems items)]
  | .identifier name => SpellsRecord "identifier" [.plain (.str name)]
  | .qualifiedIdentifier tier name =>
    SpellsRecord "qualified_identifier" [.tier tier, .plain (.str name)]
  | .group inner => SpellsRecord "group" [.one (Spells inner)]
  | .binary op left right =>
    SpellsRecord "binary" [.plain (.str op.name), .one (Spells left), .one (Spells right)]
  | .unary op operand => SpellsRecord "unary" [.plain (.str op.name), .one (Spells operand)]
  | .dice count sides form =>
    SpellsRecord "dice" [SpellsOption count, .one (Spells sides), .plain (.str form.name)]
  | .block statements => SpellsRecord "block" [.many statements (SpellsItems statements)]
  | .assign name value => SpellsRecord "assign" [.plain (.str name), .one (Spells value)]
  | .qualifiedAssign tier name value =>
    SpellsRecord "qualified_assign" [.tier tier, .plain (.str name), .one (Spells value)]
  | .delete tier name => SpellsRecord "delete" [.tierOrNone tier, .plain (.str name)]
  | .print value => SpellsRecord "print" [.one (Spells value)]
  | .branch condition consequent alternative =>
    SpellsRecord "if" [.one (Spells condition), .many consequent (SpellsItems consequent),
      .many alternative (SpellsItems alternative)]
  | .whileLoop condition body =>
    SpellsRecord "while" [.one (Spells condition), .many body (SpellsItems body)]
  | .doWhile body condition =>
    SpellsRecord "do_while" [.many body (SpellsItems body), .one (Spells condition)]
  | .define name params body tier =>
    SpellsRecord "define" [.plain (.str name), .texts params, .many body (SpellsItems body),
      .tierOrNone tier]
  | .call name tier args =>
    SpellsRecord "call" [.plain (.str name), .tierOrNone tier, .many args (SpellsItems args)]

def SpellsItems : List Node → List Json → Prop
  | [], docs => docs = []
  | n :: rest, docs => ∃ j more, docs = j :: more ∧ Spells n j ∧ SpellsItems rest more

def SpellsOption : Option Node → Field
  | some n => .one (Spells n)
  | none => .absent

end

/-! ## Objects and arrays -/

variable {kind : String} {docs : List (Option Json)} {fields : List Field} {j : Json}

theorem filter_kind {α : Type} {tag : α} {members present others : List (String × α)}
    (horder : members.Perm (("kind", tag) :: present ++ others))
    (hpresent : ∀ m ∈ present, m.1 ≠ "kind") (hothers : ∀ m ∈ others, m.1 ≠ "kind") :
    members.filter (·.1 == "kind") = [("kind", tag)] := by
  have hfilter := horder.filter (·.1 == "kind")
  rw [List.cons_append, List.filter_cons_of_pos (by simp), List.filter_append,
    Json.filter_of_notMem hpresent, Json.filter_of_notMem hothers] at hfilter
  exact List.perm_singleton.mp hfilter

/-- Whatever the form, each field is read from what stands for it. -/
theorem node_read_of_form (hlength : (fieldNames kind).length = docs.length) (h : Form kind docs j) :
    (read j).node = ofFields? kind (docs.map (Option.map read)) := by
  have htag : kindOfTag? (read (.str kind)).json = some kind := by rw [json_read, kindOfTag?]
  cases h with
  | @object members others horder hothers =>
    have hread : (readMembers members).Perm (("kind", read (.str kind)) ::
        Json.present (fieldNames kind) (docs.map (Option.map read)) ++ readMembers others) := by
      rw [readMembers_eq_map, readMembers_eq_map, ← Json.map_present]
      simpa using horder.map fun m => (m.1, read m.2)
    have hothers' : ∀ m ∈ readMembers others, m.1 ≠ "kind" ∧ m.1 ∉ fieldNames kind := by
      rw [readMembers_eq_map]
      intro m hm
      obtain ⟨m', hm', rfl⟩ := List.mem_map.mp hm
      exact hothers m' hm'
    have hkind := filter_kind hread
      (fun m hm heq => kind_notMem_fieldNames kind (heq ▸ Json.mem_of_mem_present hm))
      fun m hm => (hothers' m hm).1
    have hpick : Json.pick (fieldNames kind) (readMembers members) =
        some (docs.map (Option.map read)) := by
      refine Json.pick_of_perm hread ?_
      rw [List.cons_append, Json.pick_cons_of_notMem (kind_notMem_fieldNames kind),
        Json.pick_append_of_notMem fun m hm => (hothers' m hm).2,
        Json.pick_present (nodup_fieldNames kind) (by simpa using hlength)]
    rw [read]
    dsimp only
    unfold ofMembers?
    rw [hkind]
    dsimp only
    rw [htag]
    show (Json.pick (fieldNames kind) _).bind _ = _
    rw [hpick]
    rfl
  | @array values missing hvalues =>
    have hplace : Json.place (fieldNames kind) (values.map read) =
        some (docs.map (Option.map read)) := by
      have hmissing : (fieldNames kind).length = values.length + missing := by
        simpa [hvalues] using hlength
      unfold Json.place
      rw [if_pos (by simp [hmissing]), hvalues]
      simp [hmissing]
    rw [read, readItems]
    dsimp only
    unfold ofItems?
    dsimp only
    rw [htag, readItems_eq_map]
    show (Json.place (fieldNames kind) _).bind _ = _
    rw [hplace]
    rfl

/-! ## Fields in any of their spellings -/

namespace Reading

variable {doc : Option Json} {n : Node}

theorem plain_of {α : Type} (f : Json → Option α) (h : Field.plain j doc) :
    plain f (doc.map read) = f j := by
  obtain rfl := h
  exact plain_read f j

theorem named_of {α : Type} {name : String} (ofName? : String → Option α)
    (h : Field.plain (.str name) doc) : named ofName? (doc.map read) = ofName? name := by
  obtain rfl := h
  exact named_read ofName? name

theorem tier_of {t : Tier} (h : Field.tier t doc) : tier (doc.map read) = some t := by
  rcases h with rfl | rfl <;> cases t <;> rfl

theorem tierOrNone_of {t : Option Tier} (h : Field.tierOrNone t doc) :
    tierOrNone (doc.map read) = some t := by
  cases t with
  | none => rcases h with rfl | rfl <;> rfl
  | some t => rcases h with rfl | rfl <;> cases t <;> rfl

theorem one_of {spells : Json → Prop} (hread : ∀ j, spells j → (read j).node = some n)
    (h : Field.one spells doc) : one (doc.map read) = some n := by
  obtain ⟨j, rfl, hj⟩ := h
  exact hread j hj

/-- What is read as a node is not taken for a missing one. -/
theorem oneOrNone_of_node (h : (read j).node = some n) :
    oneOrNone (some (read j)) = some (some n) := by
  have hnull : (read j).json ≠ .null := by
    rw [json_read]
    rintro rfl
    cases h
  unfold oneOrNone
  dsimp only
  split
  · contradiction
  · rw [h, Option.map_some]

theorem many_of {items : List Node} {spells : List Json → Prop}
    (hread : ∀ docs, spells docs → (readItems docs).mapM Reading.node = some items)
    (h : Field.many items spells doc) : many (doc.map read) = some items := by
  rcases h with ⟨docs, rfl, hdocs⟩ | ⟨rfl, rfl⟩
  · rw [Option.map_some, many_read_arr, hread docs hdocs]
  · rfl

theorem texts_of {ts : List String} (h : Field.texts ts doc) : texts (doc.map read) = some ts := by
  rcases h with rfl | ⟨rfl, rfl⟩
  · exact texts_read ts
  · rfl

end Reading

/-! ## Nodes -/

/-- A spelled record is read field by field. -/
theorem SpellsRecord.read (h : SpellsRecord kind fields j)
    (hlength : (fieldNames kind).length = fields.length) :
    ∃ docs, List.Forall₂ (fun field doc => field doc) fields docs ∧
      (Node.read j).node = ofFields? kind (docs.map (Option.map Node.read)) := by
  obtain ⟨docs, hfields, hform⟩ := h
  exact ⟨docs, hfields, node_read_of_form (hlength.trans hfields.length_eq) hform⟩

mutual

/-- A spelling of a node is read as that node. -/
theorem node_read_of_spells (n : Node) (j : Json) (h : Spells n j) : (read j).node = some n := by
  -- One case per kind: whatever the form, each field is read from one of its spellings.
  match n with
  | .integer value =>
    obtain ⟨docs, _ | ⟨hvalue, _ | _⟩, hread⟩ := SpellsRecord.read h rfl
    rw [hread]
    simp [ofFields?, Reading.plain_of _ hvalue, Json.toInt64?, Number.fit?_toInt]
  | .float value =>
    obtain ⟨docs, _ | ⟨hvalue, _ | _⟩, hread⟩ := SpellsRecord.read h rfl
    rw [hread]
    simp [ofFields?, Reading.plain_of _ hvalue, Json.toFloat?]
  | .string value =>
    obtain ⟨docs, _ | ⟨hvalue, _ | _⟩, hread⟩ := SpellsRecord.read h rfl
    rw [hread]
    simp [ofFields?, Reading.plain_of _ hvalue, Json.toText?]
  | .boolean value =>
    obtain ⟨docs, _ | ⟨hvalue, _ | _⟩, hread⟩ := SpellsRecord.read h rfl
    rw [hread]
    simp [ofFields?, Reading.plain_of _ hvalue, Json.toBool?]
  | .list items =>
    obtain ⟨docs, _ | ⟨hitems, _ | _⟩, hread⟩ := SpellsRecord.read h rfl
    rw [hread]
    simp [ofFields?, Reading.many_of (nodes_readItems_of_spells items) hitems]
  | .identifier name =>
    obtain ⟨docs, _ | ⟨hname, _ | _⟩, hread⟩ := SpellsRecord.read h rfl
    rw [hread]
    simp [ofFields?, Reading.plain_of _ hname, Json.toText?]
  | .qualifiedIdentifier tier name =>
    obtain ⟨docs, _ | ⟨htier, _ | ⟨hname, _ | _⟩⟩, hread⟩ := SpellsRecord.read h rfl
    rw [hread]
    simp [ofFields?, Reading.tier_of htier, Reading.plain_of _ hname, Json.toText?]
  | .group inner =>
    obtain ⟨docs, _ | ⟨hinner, _ | _⟩, hread⟩ := SpellsRecord.read h rfl
    rw [hread]
    simp [ofFields?, Reading.one_of (node_read_of_spells inner) hinner]
  | .binary op left right =>
    obtain ⟨docs, _ | ⟨hop, _ | ⟨hleft, _ | ⟨hright, _ | _⟩⟩⟩, hread⟩ := SpellsRecord.read h rfl
    rw [hread]
    simp [ofFields?, Reading.named_of _ hop, Reading.one_of (node_read_of_spells left) hleft,
      Reading.one_of (node_read_of_spells right) hright]
  | .unary op operand =>
    obtain ⟨docs, _ | ⟨hop, _ | ⟨hoperand, _ | _⟩⟩, hread⟩ := SpellsRecord.read h rfl
    rw [hread]
    simp [ofFields?, Reading.named_of _ hop, Reading.one_of (node_read_of_spells operand) hoperand]
  | .dice count sides form =>
    obtain ⟨docs, _ | ⟨hcount, _ | ⟨hsides, _ | ⟨hform, _ | _⟩⟩⟩, hread⟩ := SpellsRecord.read h rfl
    rw [hread]
    simp [ofFields?, oneOrNone_of_spellsOption count _ hcount,
      Reading.one_of (node_read_of_spells sides) hsides, Reading.named_of _ hform]
  | .block statements =>
    obtain ⟨docs, _ | ⟨hstatements, _ | _⟩, hread⟩ := SpellsRecord.read h rfl
    rw [hread]
    simp [ofFields?, Reading.many_of (nodes_readItems_of_spells statements) hstatements]
  | .assign name value =>
    obtain ⟨docs, _ | ⟨hname, _ | ⟨hvalue, _ | _⟩⟩, hread⟩ := SpellsRecord.read h rfl
    rw [hread]
    simp [ofFields?, Reading.plain_of _ hname, Reading.one_of (node_read_of_spells value) hvalue,
      Json.toText?]
  | .qualifiedAssign tier name value =>
    obtain ⟨docs, _ | ⟨htier, _ | ⟨hname, _ | ⟨hvalue, _ | _⟩⟩⟩, hread⟩ := SpellsRecord.read h rfl
    rw [hread]
    simp [ofFields?, Reading.tier_of htier, Reading.plain_of _ hname,
      Reading.one_of (node_read_of_spells value) hvalue, Json.toText?]
  | .delete tier name =>
    obtain ⟨docs, _ | ⟨htier, _ | ⟨hname, _ | _⟩⟩, hread⟩ := SpellsRecord.read h rfl
    rw [hread]
    simp [ofFields?, Reading.tierOrNone_of htier, Reading.plain_of _ hname, Json.toText?]
  | .print value =>
    obtain ⟨docs, _ | ⟨hvalue, _ | _⟩, hread⟩ := SpellsRecord.read h rfl
    rw [hread]
    simp [ofFields?, Reading.one_of (node_read_of_spells value) hvalue]
  | .branch condition consequent alternative =>
    obtain ⟨docs, _ | ⟨hcondition, _ | ⟨hconsequent, _ | ⟨halternative, _ | _⟩⟩⟩, hread⟩ :=
      SpellsRecord.read h rfl
    rw [hread]
    simp [ofFields?, Reading.one_of (node_read_of_spells condition) hcondition,
      Reading.many_of (nodes_readItems_of_spells consequent) hconsequent,
      Reading.many_of (nodes_readItems_of_spells alternative) halternative]
  | .whileLoop condition body =>
    obtain ⟨docs, _ | ⟨hcondition, _ | ⟨hbody, _ | _⟩⟩, hread⟩ := SpellsRecord.read h rfl
    rw [hread]
    simp [ofFields?, Reading.one_of (node_read_of_spells condition) hcondition,
      Reading.many_of (nodes_readItems_of_spells body) hbody]
  | .doWhile body condition =>
    obtain ⟨docs, _ | ⟨hbody, _ | ⟨hcondition, _ | _⟩⟩, hread⟩ := SpellsRecord.read h rfl
    rw [hread]
    simp [ofFields?, Reading.many_of (nodes_readItems_of_spells body) hbody,
      Reading.one_of (node_read_of_spells condition) hcondition]
  | .define name params body tier =>
    obtain ⟨docs, _ | ⟨hname, _ | ⟨hparams, _ | ⟨hbody, _ | ⟨htier, _ | _⟩⟩⟩⟩, hread⟩ :=
      SpellsRecord.read h rfl
    rw [hread]
    simp [ofFields?, Reading.plain_of _ hname, Reading.texts_of hparams,
      Reading.many_of (nodes_readItems_of_spells body) hbody, Reading.tierOrNone_of htier,
      Json.toText?]
  | .call name tier args =>
    obtain ⟨docs, _ | ⟨hname, _ | ⟨htier, _ | ⟨hargs, _ | _⟩⟩⟩, hread⟩ := SpellsRecord.read h rfl
    rw [hread]
    simp [ofFields?, Reading.plain_of _ hname, Reading.tierOrNone_of htier,
      Reading.many_of (nodes_readItems_of_spells args) hargs, Json.toText?]

theorem nodes_readItems_of_spells (items : List Node) (docs : List Json) (h : SpellsItems items docs) :
    (readItems docs).mapM Reading.node = some items := by
  match items with
  | [] =>
    obtain rfl : docs = [] := h
    rfl
  | n :: rest =>
    obtain ⟨j, more, rfl, hj, hmore⟩ := h
    rw [readItems, List.mapM_cons, node_read_of_spells n j hj, nodes_readItems_of_spells rest more hmore]
    rfl

theorem oneOrNone_of_spellsOption (o : Option Node) (doc : Option Json) (h : SpellsOption o doc) :
    Reading.oneOrNone (doc.map read) = some o := by
  match o with
  | none => rcases h with rfl | rfl <;> rfl
  | some n =>
    obtain ⟨j, rfl, hj⟩ := h
    exact Reading.oneOrNone_of_node (node_read_of_spells n j hj)

end

/-! ## The document of a node -/

theorem present_map_some (names : List String) (values : List Json) :
    Json.present names (values.map some) = names.zip values := by
  unfold Json.present
  rw [List.zip_map_right, List.filterMap_map]
  exact List.filterMap_some

/-- A document with each field written once, in order, is spelled as an object. -/
theorem spellsRecord_record {values : List Json}
    (h : List.Forall₂ (fun field value => field (some value)) fields values) :
    SpellsRecord kind fields (record kind values) := by
  refine ⟨values.map some, ?_, ?_⟩
  · rw [List.forall₂_map_right_iff]
    exact h
  · have horder : (("kind", Json.str kind) :: (fieldNames kind).zip values).Perm
        (("kind", .str kind) :: Json.present (fieldNames kind) (values.map some) ++ []) := by
      rw [present_map_some, List.append_nil]
    exact .object horder (by simp)

theorem field_tierOrNone (t : Option Tier) : Field.tierOrNone t (some (tierJson t)) := by
  cases t with
  | none => exact .inl rfl
  | some t => exact .inl rfl

mutual

/-- The document of a node is one of its spellings. -/
theorem spells_toJson (n : Node) : Spells n n.toJson := by
  match n with
  | .integer value =>
    show SpellsRecord _ _ (record "integer" [.int value.toInt])
    exact spellsRecord_record (.cons rfl .nil)
  | .float value =>
    show SpellsRecord _ _ (record "float" [.float value])
    exact spellsRecord_record (.cons rfl .nil)
  | .string value =>
    show SpellsRecord _ _ (record "string" [.str value])
    exact spellsRecord_record (.cons rfl .nil)
  | .boolean value =>
    show SpellsRecord _ _ (record "boolean" [.bool value])
    exact spellsRecord_record (.cons rfl .nil)
  | .list items =>
    show SpellsRecord _ _ (record "list" [.arr (itemsJson items)])
    exact spellsRecord_record (.cons (.inl ⟨_, rfl, spellsItems_itemsJson items⟩) .nil)
  | .identifier name =>
    show SpellsRecord _ _ (record "identifier" [.str name])
    exact spellsRecord_record (.cons rfl .nil)
  | .qualifiedIdentifier tier name =>
    show SpellsRecord _ _ (record "qualified_identifier" [tier.toJson, .str name])
    exact spellsRecord_record (.cons (.inl rfl) (.cons rfl .nil))
  | .group inner =>
    show SpellsRecord _ _ (record "group" [inner.toJson])
    exact spellsRecord_record (.cons ⟨_, rfl, spells_toJson inner⟩ .nil)
  | .binary op left right =>
    show SpellsRecord _ _ (record "binary" [.str op.name, left.toJson, right.toJson])
    exact spellsRecord_record (.cons rfl (.cons ⟨_, rfl, spells_toJson left⟩
      (.cons ⟨_, rfl, spells_toJson right⟩ .nil)))
  | .unary op operand =>
    show SpellsRecord _ _ (record "unary" [.str op.name, operand.toJson])
    exact spellsRecord_record (.cons rfl (.cons ⟨_, rfl, spells_toJson operand⟩ .nil))
  | .dice count sides form =>
    show SpellsRecord _ _ (record "dice" [optionJson count, sides.toJson, .str form.name])
    exact spellsRecord_record (.cons (spellsOption_optionJson count)
      (.cons ⟨_, rfl, spells_toJson sides⟩ (.cons rfl .nil)))
  | .block statements =>
    show SpellsRecord _ _ (record "block" [.arr (itemsJson statements)])
    exact spellsRecord_record (.cons (.inl ⟨_, rfl, spellsItems_itemsJson statements⟩) .nil)
  | .assign name value =>
    show SpellsRecord _ _ (record "assign" [.str name, value.toJson])
    exact spellsRecord_record (.cons rfl (.cons ⟨_, rfl, spells_toJson value⟩ .nil))
  | .qualifiedAssign tier name value =>
    show SpellsRecord _ _ (record "qualified_assign" [tier.toJson, .str name, value.toJson])
    exact spellsRecord_record (.cons (.inl rfl) (.cons rfl (.cons ⟨_, rfl, spells_toJson value⟩ .nil)))
  | .delete tier name =>
    show SpellsRecord _ _ (record "delete" [tierJson tier, .str name])
    exact spellsRecord_record (.cons (field_tierOrNone tier) (.cons rfl .nil))
  | .print value =>
    show SpellsRecord _ _ (record "print" [value.toJson])
    exact spellsRecord_record (.cons ⟨_, rfl, spells_toJson value⟩ .nil)
  | .branch condition consequent alternative =>
    show SpellsRecord _ _ (record "if"
      [condition.toJson, .arr (itemsJson consequent), .arr (itemsJson alternative)])
    exact spellsRecord_record (.cons ⟨_, rfl, spells_toJson condition⟩
      (.cons (.inl ⟨_, rfl, spellsItems_itemsJson consequent⟩)
      (.cons (.inl ⟨_, rfl, spellsItems_itemsJson alternative⟩) .nil)))
  | .whileLoop condition body =>
    show SpellsRecord _ _ (record "while" [condition.toJson, .arr (itemsJson body)])
    exact spellsRecord_record (.cons ⟨_, rfl, spells_toJson condition⟩
      (.cons (.inl ⟨_, rfl, spellsItems_itemsJson body⟩) .nil))
  | .doWhile body condition =>
    show SpellsRecord _ _ (record "do_while" [.arr (itemsJson body), condition.toJson])
    exact spellsRecord_record (.cons (.inl ⟨_, rfl, spellsItems_itemsJson body⟩)
      (.cons ⟨_, rfl, spells_toJson condition⟩ .nil))
  | .define name params body tier =>
    show SpellsRecord _ _ (record "define"
      [.str name, textsJson params, .arr (itemsJson body), tierJson tier])
    exact spellsRecord_record (.cons rfl (.cons (.inl rfl)
      (.cons (.inl ⟨_, rfl, spellsItems_itemsJson body⟩) (.cons (field_tierOrNone tier) .nil))))
  | .call name tier args =>
    show SpellsRecord _ _ (record "call" [.str name, tierJson tier, .arr (itemsJson args)])
    exact spellsRecord_record (.cons rfl (.cons (field_tierOrNone tier)
      (.cons (.inl ⟨_, rfl, spellsItems_itemsJson args⟩) .nil)))

theorem spellsItems_itemsJson (items : List Node) : SpellsItems items (itemsJson items) := by
  match items with
  | [] => exact rfl
  | n :: rest => exact ⟨_, _, by rw [itemsJson], spells_toJson n, spellsItems_itemsJson rest⟩

theorem spellsOption_optionJson (o : Option Node) : SpellsOption o (some (optionJson o)) := by
  match o with
  | none => exact .inl rfl
  | some n => exact ⟨_, by rw [optionJson], spells_toJson n⟩

end

/-! ## Reading a spelling -/

theorem lookup_of_filter {name : String} {v : Json} {members : List (String × Json)}
    (h : members.filter (·.1 == name) = [(name, v)]) : members.lookup name = some v := by
  induction members with
  | nil => cases h
  | cons m rest ih =>
    obtain ⟨k, w⟩ := m
    rw [Assoc.lookup_cons_ite]
    by_cases hk : k = name
    · rw [List.filter_cons_of_pos (by simpa using hk)] at h
      rw [if_pos hk.symm, (Prod.mk.inj (List.cons.inj h).1).2]
    · rw [List.filter_cons_of_neg (by simpa using hk)] at h
      rw [if_neg (Ne.symm hk), ih h]

theorem hasTextTag_of_form (h : Form kind docs j) : hasTextTag j = true := by
  cases h with
  | @object members others horder hothers =>
    have hkind := filter_kind horder
      (fun m hm heq => kind_notMem_fieldNames kind (heq ▸ Json.mem_of_mem_present hm))
      fun m hm => (hothers m hm).1
    rw [hasTextTag, lookup_of_filter hkind]
  | array hvalues => rfl

/-- Every spelling has the kind as a text. -/
theorem hasTextTag_of_spells {n : Node} (h : Spells n j) : hasTextTag j = true := by
  cases n <;>
  · obtain ⟨docs, -, hform⟩ := h
    exact hasTextTag_of_form hform

/-- A spelling is read wherever its depth is admitted. -/
theorem ofJson?_of_spells {n : Node} (h : Spells n j) {scope : Json.Scope}
    (hadmits : scope.admits j = true) : ofJson? scope j = some n := by
  unfold ofJson?
  cases scope with
  | held => exact node_read_of_spells n j h
  | direct room =>
    dsimp only
    rw [hadmits, hasTextTag_of_spells h, Bool.and_self, if_pos rfl, node_read_of_spells n j h]

end Node

def Node.rolling : Node := .call "f" (some .shared) [.dice none (.integer 6) .scalar, .block []]

/-- Its kind and fields and two members that say nothing about it, with the die as an array, the block
without its statements, and the tier by the word that selects it. -/
def Json.rollingMembers : List (String × Json) :=
  [("kind", .str "call"), ("name", .str "f"), ("tier", .str "our"),
    ("args", .arr [.arr [.str "dice", .null, .arr [.str "integer", .int 6], .str "scalar"],
      .obj [("kind", .str "block")]]),
    ("note", .null), ("note", .arr [])]

def Json.rolling : Json := .obj rollingMembers.reverse

theorem Node.spells_rolling : rolling.Spells Json.rolling := by
  have hsides : (Node.integer 6).Spells (.arr [.str "integer", .int 6]) :=
    ⟨[some (.int 6)], .cons rfl .nil, @Form.array _ _ _ 0 rfl⟩
  have hdice : (Node.dice none (.integer 6) .scalar).Spells
      (.arr [.str "dice", .null, .arr [.str "integer", .int 6], .str "scalar"]) :=
    ⟨[some .null, some (.arr [.str "integer", .int 6]), some (.str "scalar")],
      .cons (.inl rfl) (.cons ⟨_, rfl, hsides⟩ (.cons rfl .nil)), @Form.array _ _ _ 0 rfl⟩
  have hblock : (Node.block []).Spells (.obj [("kind", .str "block")]) :=
    ⟨[none], .cons (.inr ⟨rfl, rfl⟩) .nil, .object (.refl _) (by simp)⟩
  have hargs : SpellsItems [.dice none (.integer 6) .scalar, .block []]
      [.arr [.str "dice", .null, .arr [.str "integer", .int 6], .str "scalar"],
        .obj [("kind", .str "block")]] := ⟨_, _, rfl, hdice, _, _, rfl, hblock, rfl⟩
  have hothers : ∀ m ∈ [("note", Json.null), ("note", .arr [])],
      m.1 ≠ "kind" ∧ m.1 ∉ fieldNames "call" := by
    simp [fieldNames]
  exact ⟨[some (.str "f"), some (.str "our"), some (.arr _)],
    .cons rfl (.cons (.inr rfl) (.cons (.inl ⟨_, rfl, hargs⟩) .nil)),
    .object (List.reverse_perm Json.rollingMembers) hothers⟩

end DiceScript
