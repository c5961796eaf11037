import DiceScript.Proofs.Codec.Values
import DiceScript.Proofs.Json.Text
import DiceScript.Proofs.Values.Lasting

/-!
# Finite values

What a medium can keep: values whose floats are finite, in the bodies of functions as well. It is a
lasting property, so runs store nothing else, and the document of a store that holds nothing else
loses nothing when it is written.

- `Value.FinitePart` — the property, of one part of a value.
- `lasting_finitePart` — no way to come by a value breaks it.
- `Image.writable_toJson` — the image of such a store loses nothing.
-/

namespace DiceScript

def Value.FinitePart : Value → Prop
  | .float x => x.isFinite
  | .function f => ∀ n ∈ f.body, n.FiniteFloats
  | _ => True

theorem lasting_finitePart : Value.Lasting Value.FinitePart where
  integer _ := trivial
  float _ := Iff.rfl
  string _ := trivial
  boolean _ := trivial
  list _ := trivial
  function _ hbody := hbody
  body hf := hf

/-! ## Documents that lose nothing -/

namespace Json

@[simp] theorem writable_null : Writable .null := .intro trivial (by simp [parts])

@[simp] theorem writable_bool (b : Bool) : Writable (.bool b) := .intro trivial (by simp [parts])

@[simp] theorem writable_str (s : String) : Writable (.str s) := .intro trivial (by simp [parts])

@[simp] theorem writable_int {n : Int} : Writable (.int n) ↔ Integral n :=
  ⟨fun h => h.self, fun h => .intro h (by simp [parts])⟩

@[simp] theorem integral_toInt (n : Int64) : Integral n.toInt := by
  have hn := Number.fits_toInt n
  unfold Number.Fits at hn
  constructor <;> omega

@[simp] theorem writable_float {x : Float} : Writable (.float x) ↔ x.isFinite :=
  ⟨fun h => h.self, fun h => .intro h (by simp [parts])⟩

@[simp] theorem writable_arr {items : List Json} :
    Writable (.arr items) ↔ ∀ j ∈ items, j.Writable :=
  ⟨fun h => h.parts, fun h => .intro trivial h⟩

@[simp] theorem writable_obj {members : List (String × Json)} :
    Writable (.obj members) ↔ ∀ m ∈ members, m.2.Writable :=
  ⟨fun h => List.forall_mem_map.mp h.parts, fun h => .intro trivial (List.forall_mem_map.mpr h)⟩

/-- A document that loses nothing denotes something throughout. -/
theorem Writable.isReadable {j : Json} (h : j.Writable) : j.isReadable = true := by
  induction h with
  | @intro j hp _ ih =>
    cases j with
    | arr items =>
      rw [Json.isReadable, itemsReadable_iff]
      exact ih
    | obj members =>
      rw [Json.isReadable, membersReadable_iff]
      exact List.forall_mem_map.mp ih
    | unreadable => exact absurd hp id
    | _ => rfl

end Json

/-! ## Programs and values -/

@[simp] theorem Tier.writable_toJson (t : Tier) : t.toJson.Writable := Json.writable_str _

@[simp] theorem Node.writable_tierJson (t : Option Tier) : (Node.tierJson t).Writable := by
  cases t with
  | none => exact Json.writable_null
  | some t => exact t.writable_toJson

@[simp] theorem Node.writable_textsJson (texts : List String) : (Node.textsJson texts).Writable := by
  unfold Node.textsJson
  simp

theorem Node.FiniteFloats.writable {n : Node} (h : n.FiniteFloats) : n.toJson.Writable := by
  induction h with
  | @intro n hp _ ih =>
    cases n with
    | float x =>
      rw [Node.toJson]
      simpa using hp
    | dice count sides form =>
      cases count with
      | none => simp_all [Node.toJson, Node.optionJson, Node.parts]
      | some count => simp_all [Node.toJson, Node.optionJson, Node.parts]
    | _ => simp_all [Node.toJson, Node.itemsJson_eq_map, Node.parts]

theorem Function.writable_toJson {f : Function} (h : ∀ n ∈ f.body, n.FiniteFloats) :
    f.toJson.Writable := by
  have hbody : ∀ n ∈ f.body, n.toJson.Writable := fun n hn => (h n hn).writable
  simpa [Function.toJson, Node.itemsJson_eq_map] using hbody

namespace Value

mutual

theorem writable_toJson (v : Value) (h : v.All FinitePart) : v.toJson.Writable := by
  match v with
  | .integer n => simp [toJson, tagged]
  | .float x =>
    have hx : x.isFinite := h.self
    simp [toJson, tagged, hx]
  | .string s => simp [toJson, tagged]
  | .boolean b => simp [toJson, tagged]
  | .list items =>
    have hitems := writable_itemsJson items (all_list.mp h).2
    simpa [toJson, tagged] using hitems
  | .function f =>
    have hf := Function.writable_toJson h.self
    simpa [toJson, tagged] using hf
  | .undefined => simp [toJson]

theorem writable_itemsJson (items : List Value) (h : ∀ v ∈ items, v.All FinitePart) :
    ∀ j ∈ itemsJson items, j.Writable := by
  match items with
  | [] => simp [itemsJson]
  | v :: rest =>
    obtain ⟨hv, hrest⟩ := List.forall_mem_cons.mp h
    rw [itemsJson, List.forall_mem_cons]
    exact ⟨writable_toJson v hv, writable_itemsJson rest hrest⟩

end

end Value

/-! ## Stores -/

theorem Dict.writable_toJson {α : Type} {write : α → Json} {d : Dict α}
    (h : ∀ k a, d.get? k = some a → (write a).Writable) : (d.toJson write).Writable := by
  unfold Dict.toJson
  rw [Json.writable_obj, List.forall_mem_map]
  rintro ⟨k, a⟩ hmem
  exact h k a (get?_of_mem hmem)

/-- An image with nothing but finite floats loses nothing, whatever its schema is called. -/
theorem Image.writable_toJson {i : Image} (h : i.store.Holds Value.FinitePart) :
    i.toJson.Writable := by
  have hcore : i.store.core.toJson.Writable := Dict.writable_toJson fun name v hv =>
    v.writable_toJson (h .core name v hv)
  have hglobal : i.store.global.toJson.Writable := Dict.writable_toJson fun name v hv =>
    v.writable_toJson (h .global name v hv)
  have hshared : (i.store.shared.toJson Bindings.toJson).Writable :=
    Dict.writable_toJson fun server b hb => Dict.writable_toJson fun name v hv =>
      v.writable_toJson (h (.shared server) name v (by
        rw [Store.get?, Store.bindings?, hb]
        exact hv))
  have hpersonal : (i.store.personal.toJson (Dict.toJson Bindings.toJson)).Writable :=
    Dict.writable_toJson fun server users hu => Dict.writable_toJson fun user b hb =>
      Dict.writable_toJson fun name v hv =>
        v.writable_toJson (h (.personal server user) name v (by
          rw [Store.get?, Store.bindings?, hu, Option.bind_some, hb]
          exact hv))
  unfold Image.toJson
  simp [hcore, hglobal, hshared, hpersonal]

end DiceScript
