import DiceScript.Proofs.Codec.Programs
import DiceScript.Store.Image

/-!
# Values and images read back

A value is written with its type in front, so its payload is read as that type at once, level by
level. A map lists each of its names once and in order, so adding its bindings one by one builds the
same map. It follows that an image is read back exactly when no more brackets are open in it than the
reader allows, and is refused otherwise.

- `Value.faithful_toJson` — the codec of values is faithful.
- `Dict.faithful_toJson` — the codec of maps is, if that of what they bind is.
- `Image.faithful_toJson` — hence so is the codec of images.
-/

namespace DiceScript

/-! ## Functions -/

theorem Json.faithful_str : Json.Faithful Json.str fun _ => Json.toText? := by
  intro scope s
  rw [Json.admits_str]
  rfl

theorem Node.faithful_textsJson : Json.Faithful Node.textsJson Json.toTexts? :=
  Json.faithful_str.toList?

theorem Node.itemsJson_eq_map (items : List Node) : Node.itemsJson items = items.map Node.toJson := by
  induction items with
  | nil => rfl
  | cons n rest ih => rw [Node.itemsJson, ih, List.map_cons]

/-- The codec of functions is faithful. -/
theorem Function.faithful_toJson : Json.Faithful Function.toJson Function.ofJson? := by
  intro scope f
  have hfields : f.toJson = .obj (["name", "params", "body", "tier"].zip
      [.str f.name, Node.textsJson f.params, .arr (f.body.map Node.toJson), f.tier.toJson]) := by
    rw [Function.toJson, Node.itemsJson_eq_map]
    rfl
  rw [hfields, Function.ofJson?, Json.toFields?_zip (by decide) rfl, Json.admits_obj]
  cases scope.enter? with
  | none => rfl
  | some inner =>
    have hbody := Node.faithful_toJson.toList? inner f.body
    simp only [Option.map_some, List.map_cons, List.map_nil, Json.required, Option.bind_some,
      Json.toText?, Node.faithful_textsJson inner f.params, hbody, Tier.ofJson?_toJson]
    have htier : inner.admits f.tier.toJson = true := Json.admits_str inner _
    simp [htier, ite_and, Json.bind_admitted]

namespace Value

/-! ## Values -/

@[simp] theorem ofName?_name (type : ValueType) : ValueType.ofName? type.name = some type := by
  cases type <;> decide

theorem json_read (j : Json) : (read j).json = j := by
  cases j <;> simp [read]

/-- A payload behind its type is read as that type. -/
theorem ofJson?_tagged (scope : Json.Scope) (type : ValueType) (payload : Json) :
    ofJson? scope (tagged type payload) =
      scope.enter?.bind fun inner => ofPayload? inner type (some (read payload)) := by
  have hread : ofJson? scope (tagged type payload) =
      ofMembers? [("type", read (.str type.name)), ("value", read payload)] scope := by
    rw [ofJson?, tagged, read, readMembers, readMembers, readMembers]
  have hpick : Json.pick ["type", "value"]
      [("type", read (.str type.name)), ("value", read payload)] =
        some [some (read (.str type.name)), some (read payload)] :=
    Json.pick_zip (show ["type", "value"].Nodup by decide)
      (show 2 = [read (.str type.name), read payload].length from rfl)
  rw [hread, ofMembers?, hpick]
  cases scope.enter? with
  | none => rfl
  | some inner => simp [json_read, Json.toName?, payloadFirst]

theorem ofJson?_undefined (scope : Json.Scope) :
    ofJson? scope (toJson .undefined) = scope.enter?.map fun _ => .undefined := by
  have hread : ofJson? scope (toJson .undefined) =
      ofMembers? [("type", read (.str ValueType.undefined.name))] scope := by
    rw [ofJson?, toJson, read, readMembers, readMembers]
  have hpick : Json.pick ["type", "value"] [("type", read (.str ValueType.undefined.name))] =
      some [some (read (.str ValueType.undefined.name)), none] := rfl
  rw [hread, ofMembers?, hpick]
  cases scope.enter? with
  | none => rfl
  | some inner => simp [json_read, Json.toName?, ofPayload?]

theorem admits_tagged (scope : Json.Scope) (type : ValueType) (payload : Json) :
    scope.admits (tagged type payload) = scope.enter?.any fun inner => inner.admits payload := by
  rw [tagged, Json.admits_obj]
  congr 1
  funext inner
  simp

mutual

theorem ofJson?_toJson (scope : Json.Scope) (v : Value) :
    ofJson? scope v.toJson = if scope.admits v.toJson then some v else none := by
  match v with
  | .integer n =>
    rw [toJson, ofJson?_tagged, admits_tagged]
    cases scope.enter? <;> simp [ofPayload?, json_read, Json.toInt64?, Number.fit?_toInt]
  | .float x =>
    rw [toJson, ofJson?_tagged, admits_tagged]
    cases scope.enter? <;> simp [ofPayload?, json_read, Json.toFloat?]
  | .string s =>
    rw [toJson, ofJson?_tagged, admits_tagged]
    cases scope.enter? <;> simp [ofPayload?, json_read, Json.toText?]
  | .boolean b =>
    rw [toJson, ofJson?_tagged, admits_tagged]
    cases scope.enter? <;> simp [ofPayload?, json_read, Json.toBool?]
  | .list items =>
    rw [toJson, ofJson?_tagged, admits_tagged]
    cases scope.enter? with
    | none => rfl
    | some inner =>
      -- The payload opens a bracket of its own, so the items lie two levels further down.
      show ((read (.arr (itemsJson items))).values inner).map Value.list = _
      rw [read]
      dsimp only
      rw [Option.any_some, Json.admits_arr]
      cases inner.enter? with
      | none => rfl
      | some within =>
        rw [Option.bind_some, Option.any_some, values_readItems within items]
        split <;> rfl
  | .function f =>
    rw [toJson, ofJson?_tagged, admits_tagged]
    cases scope.enter? with
    | none => rfl
    | some inner =>
      show (Function.ofJson? inner (read f.toJson).json).map Value.function = _
      rw [json_read, Function.faithful_toJson inner f, Option.any_some]
      split <;> rfl
  | .undefined =>
    rw [ofJson?_undefined, toJson, Json.admits_obj]
    cases scope.enter? <;> simp

theorem values_readItems (scope : Json.Scope) (items : List Value) :
    (readItems (itemsJson items)).mapM (fun r => r.value scope) =
      if (itemsJson items).all scope.admits then some items else none := by
  match items with
  | [] => rfl
  | v :: rest =>
    have hv : (read v.toJson).value scope = if scope.admits v.toJson then some v else none :=
      ofJson?_toJson scope v
    rw [itemsJson, readItems, List.mapM_cons, hv, values_readItems scope rest, List.all_cons]
    by_cases ha : scope.admits v.toJson = true
    · by_cases hrest : (itemsJson rest).all scope.admits = true <;> simp [ha, hrest]
    · simp [ha]

end

/-- The codec of values is faithful. -/
theorem faithful_toJson : Json.Faithful toJson ofJson? := ofJson?_toJson

end Value

/-! ## Maps -/

namespace Dict

variable {α : Type}

/-- A name greater than all others is added at the end. -/
theorem insertEntry_of_lt {k : String} {l : List (String × α)} (v : α) (h : ∀ e ∈ l, e.1 < k) :
    insertEntry k v l = l ++ [(k, v)] := by
  induction l with
  | nil => rfl
  | cons e rest ih =>
    have hlt : e.1 < k := h e List.mem_cons_self
    have hnot : ¬ k < e.1 := fun hk => String.lt_irrefl k (String.lt_trans hk hlt)
    have hne : k ≠ e.1 := fun hk => String.lt_irrefl e.1 (hk ▸ hlt)
    rw [insertEntry, if_neg hnot, if_neg hne, ih fun e he => h e (List.mem_cons_of_mem _ he)]
    rfl

theorem entries_insertMany (d : Dict α) {l : List (String × α)}
    (h : (d.entries ++ l).Pairwise fun a b => a.1 < b.1) :
    (d.insertMany l).entries = d.entries ++ l := by
  induction l generalizing d with
  | nil => exact (List.append_nil _).symm
  | cons e rest ih =>
    have hnew : (d.insert e.1 e.2).entries = d.entries ++ [e] :=
      insertEntry_of_lt e.2 fun a ha => (List.pairwise_append.mp h).2.2 a ha e List.mem_cons_self
    -- The next name is greater than all that are in the map already.
    have hassoc : d.entries ++ e :: rest = (d.insert e.1 e.2).entries ++ rest := by
      rw [hnew, List.append_assoc, List.singleton_append]
    rw [hassoc] at h ⊢
    exact ih (d.insert e.1 e.2) h

/-- The bindings of a map, added one by one, make up the map. -/
theorem ofList_entries (d : Dict α) : ofList d.entries = d := by
  have h : (ofList d.entries).entries = d.entries := entries_insertMany empty d.sorted
  obtain ⟨l, hl⟩ := d
  exact ext_get? fun k => by rw [get?, h]; rfl

theorem faithful_toJson {write : α → Json} {read : Json.Scope → Json → Option α}
    (h : Json.Faithful write read) : Json.Faithful (Dict.toJson write) (Dict.ofJson? read) := by
  intro scope d
  have hmembers : Dict.toJson write d = .obj (d.entries.map fun m => (m.1, write m.2)) := rfl
  rw [hmembers, Dict.ofJson?, h.toMembers? scope d.entries]
  split
  · rw [Option.map_some, ofList_entries]
  · rfl

end Dict

theorem Bindings.faithful_toJson : Json.Faithful Bindings.toJson Bindings.ofJson? :=
  Dict.faithful_toJson Value.faithful_toJson

/-! ## Images -/

/-- The codec of images is faithful. -/
theorem Image.faithful_toJson : Json.Faithful Image.toJson Image.ofJson? := by
  intro scope i
  have hfields : i.toJson = .obj (["schemaVersion", "core", "global", "shared", "private"].zip
      [.str i.schema, i.store.core.toJson, i.store.global.toJson,
        i.store.shared.toJson Bindings.toJson,
        i.store.personal.toJson (Dict.toJson Bindings.toJson)]) := rfl
  rw [hfields, Image.ofJson?, Json.toFields?_zip (by decide) rfl, Json.admits_obj]
  cases scope.enter? with
  | none => rfl
  | some inner =>
    have hbindings := Bindings.faithful_toJson
    have hshared := Dict.faithful_toJson hbindings
    have hpersonal := Dict.faithful_toJson hshared
    simp only [Option.map_some, List.map_cons, List.map_nil, Json.required, Json.withDefault,
      Option.bind_some, Json.toText?, hbindings inner i.store.core, hbindings inner i.store.global,
      hshared inner i.store.shared, hpersonal inner i.store.personal]
    simp [ite_and, Json.bind_admitted]

end DiceScript
