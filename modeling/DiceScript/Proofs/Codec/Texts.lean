import DiceScript.Proofs.Values.Finite

/-!
# Texts read back

What a faithful codec writes is a document, and a document that loses nothing is read from its text
as it was written. So the text of a program, a value or an image with finite floats is read back
exactly when the reader's bound of 127 open arrays and objects admits it, and is refused otherwise.

- `Json.Faithful.read_text` — for any codec that is faithful.
- `texts_read_back_exactly_when_shallow` — for programs, values and images.
-/

namespace DiceScript

namespace Json

/-- Whether a document that loses nothing is read depends on its depth alone. -/
theorem Writable.admits_top {j : Json} (h : j.Writable) :
    Scope.top.admits j = decide (j.depth ≤ 127) := by
  show (decide (j.depth ≤ 127) && j.isReadable) = _
  rw [h.isReadable, Bool.and_true]

/-- Any text that holds what a faithful codec has written is read back up to the reader's bound. -/
theorem Faithful.read_text {α : Type} {write : α → Json} {read : Scope → Json → Option α}
    (h : Faithful write read) {a : α} (ha : (write a).Writable) {text : String}
    (htext : parse? text = some (write a)) :
    (parse? text).bind (read .top) = if (write a).depth ≤ 127 then some a else none := by
  rw [htext, Option.bind_some, h, ha.admits_top]
  simp only [decide_eq_true_eq]

end Json

/-- **Texts are read back exactly up to the reader's bound.** The text of a program, a value or an
image whose floats are finite gives back just that program, value or image if at most 127 arrays and
objects are open in it at once, and is refused if more are. For images the layout makes no
difference. -/
theorem texts_read_back_exactly_when_shallow :
    (∀ n : Node, n.FiniteFloats →
      (Json.parse? n.toJson.compact).bind (Node.ofJson? .top) =
        if n.toJson.depth ≤ 127 then some n else none) ∧
    (∀ v : Value, v.All Value.FinitePart →
      (Json.parse? v.toJson.compact).bind (Value.ofJson? .top) =
        if v.toJson.depth ≤ 127 then some v else none) ∧
    ∀ i : Image, i.store.Holds Value.FinitePart →
      (Json.parse? i.toJson.compact).bind (Image.ofJson? .top) =
        (if i.toJson.depth ≤ 127 then some i else none) ∧
      (Json.parse? i.toJson.pretty).bind (Image.ofJson? .top) =
        if i.toJson.depth ≤ 127 then some i else none := by
  refine ⟨?_, ?_, ?_⟩
  · intro n hn
    exact Node.faithful_toJson.read_text hn.writable (Json.parse?_compact hn.writable)
  · intro v hv
    have hwritable := v.writable_toJson hv
    exact Value.faithful_toJson.read_text hwritable (Json.parse?_compact hwritable)
  · intro i hi
    have hwritable := Image.writable_toJson hi
    constructor
    · exact Image.faithful_toJson.read_text hwritable (Json.parse?_compact hwritable)
    · exact Image.faithful_toJson.read_text hwritable (Json.parse?_pretty hwritable)

/-! ## On both sides of the bound -/

def Node.bracketed : Nat → Node
  | 0 => .float 0.1
  | n + 1 => .group (bracketed n)

theorem Node.finiteFloats_bracketed (n : Nat) : (bracketed n).FiniteFloats := by
  induction n with
  | zero =>
    have hx : Float.isFinite 0.1 = true := by decide
    exact .intro hx (by simp [bracketed, parts])
  | succ n ih =>
    refine .intro trivial ?_
    rintro k hk
    obtain rfl := List.mem_singleton.mp hk
    exact ih

theorem Node.depth_bracketed (n : Nat) : (bracketed n).toJson.depth = n + 1 := by
  induction n with
  | zero => rfl
  | succ n ih =>
    rw [bracketed, toJson]
    simp [Json.depth, Json.depthMembers, ih]

def Value.bracketing (n : Nat) : Value := .function ⟨"f", ["a"], [.bracketed n], .global⟩

theorem Value.all_bracketing (n : Nat) : (bracketing n).All FinitePart := by
  rw [bracketing, all_function]
  intro k hk
  obtain rfl := List.mem_singleton.mp hk
  exact Node.finiteFloats_bracketed n

theorem Value.depth_bracketing (n : Nat) : (bracketing n).toJson.depth = n + 4 := by
  rw [bracketing, toJson]
  simp [tagged, Function.toJson, Node.textsJson, Node.itemsJson, Tier.toJson, Json.depth,
    Json.depthMembers, Json.depthItems, Node.depth_bracketed]

def Store.bracketing (n : Nat) : Store := { global := Dict.empty.insert "f" (.bracketing n) }

theorem Store.holds_bracketing (n : Nat) : (bracketing n).Holds Value.FinitePart :=
  Store.holds_empty.put (Value.all_bracketing n) (show put {} .global "f" _ = _ from rfl)

theorem Store.depth_bracketing (n : Nat) : (bracketing n).image.toJson.depth = n + 6 := by
  have hglobal : (bracketing n).global.toJson = .obj [("f", (Value.bracketing n).toJson)] := rfl
  have hcore : (bracketing n).core.toJson = .obj [] := rfl
  have hshared : (bracketing n).shared.toJson Bindings.toJson = .obj [] := rfl
  have hpersonal : (bracketing n).personal.toJson (Dict.toJson Bindings.toJson) = .obj [] := rfl
  rw [image, Image.toJson, hglobal, hcore, hshared, hpersonal]
  simp [Json.depth, Json.depthMembers, Value.depth_bracketing]

/-- One bracket more, and the program, the function with it in its body and the image of a store with
that function are no longer read back. -/
theorem texts_read_back_exactly_when_shallow_bracketed :
    ((Node.bracketed 126).FiniteFloats ∧ (Node.bracketed 127).FiniteFloats ∧
      (Json.parse? (Node.bracketed 126).toJson.compact).bind (Node.ofJson? .top) =
        some (.bracketed 126) ∧
      (Json.parse? (Node.bracketed 127).toJson.compact).bind (Node.ofJson? .top) = none) ∧
    ((Value.bracketing 123).All Value.FinitePart ∧ (Value.bracketing 124).All Value.FinitePart ∧
      (Json.parse? (Value.bracketing 123).toJson.compact).bind (Value.ofJson? .top) =
        some (.bracketing 123) ∧
      (Json.parse? (Value.bracketing 124).toJson.compact).bind (Value.ofJson? .top) = none) ∧
    (Store.bracketing 121).Holds Value.FinitePart ∧ (Store.bracketing 122).Holds Value.FinitePart ∧
      (Json.parse? (Store.bracketing 121).image.toJson.pretty).bind (Image.ofJson? .top) =
        some (Store.bracketing 121).image ∧
      (Json.parse? (Store.bracketing 122).image.toJson.pretty).bind (Image.ofJson? .top) = none := by
  obtain ⟨hnode, hvalue, himage⟩ := texts_read_back_exactly_when_shallow
  refine ⟨⟨Node.finiteFloats_bracketed _, Node.finiteFloats_bracketed _, ?_, ?_⟩,
    ⟨Value.all_bracketing _, Value.all_bracketing _, ?_, ?_⟩,
    Store.holds_bracketing _, Store.holds_bracketing _, ?_, ?_⟩
  · rw [hnode _ (Node.finiteFloats_bracketed _), Node.depth_bracketed]
    rfl
  · rw [hnode _ (Node.finiteFloats_bracketed _), Node.depth_bracketed]
    rfl
  · rw [hvalue _ (Value.all_bracketing _), Value.depth_bracketing]
    rfl
  · rw [hvalue _ (Value.all_bracketing _), Value.depth_bracketing]
    rfl
  · rw [(himage _ (Store.holds_bracketing _)).2, Store.depth_bracketing]
    rfl
  · rw [(himage _ (Store.holds_bracketing _)).2, Store.depth_bracketing]
    rfl

end DiceScript
