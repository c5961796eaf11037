import DiceScript.Proofs.Json.Text

/-!
# Documents on one line

The compact text of a document has no control character, whatever the strings in it: what would break
the line is written as an escape, and nothing but a colon or a comma stands between tokens.

- `Text.OneLine` — a text without control characters.
- `oneLine_stringText` — strings.
- `oneLine_render` — documents.
-/

namespace DiceScript

namespace Text

/-- A text that stays on its line: no character of it is a control character, such as a line break. -/
def OneLine (text : List Char) : Prop := ∀ c ∈ text, 0x20 ≤ c.toNat

@[simp] theorem oneLine_nil : OneLine [] := nofun

@[simp] theorem oneLine_cons {c : Char} {text : List Char} :
    OneLine (c :: text) ↔ 0x20 ≤ c.toNat ∧ OneLine text := List.forall_mem_cons

@[simp] theorem oneLine_append {first second : List Char} :
    OneLine (first ++ second) ↔ OneLine first ∧ OneLine second := List.forall_mem_append

theorem OneLine.sublist {part text : List Char} (h : OneLine text) (hsub : part.Sublist text) :
    OneLine part :=
  fun c hc => h c (hsub.subset hc)

theorem OneLine.not_mem {text : List Char} (h : OneLine text) : '\n' ∉ text :=
  fun hmem => absurd (h _ hmem) (by decide)

theorem oneLine_of_digits {text : List Char} (h : ∀ c ∈ text, c.isDigit = true) : OneLine text := by
  intro c hc
  have hlower : 48 ≤ c.toNat := of_decide_eq_true (Bool.and_eq_true_iff.mp (h c hc)).1
  omega

end Text

open Text

/-! ## Numbers -/

namespace Number

@[simp] theorem oneLine_toDigits (n : Nat) : OneLine (Nat.toDigits 10 n) :=
  oneLine_of_digits fun _ => Json.isDigit_of_mem_natText

@[simp] theorem oneLine_natText (n : Nat) : OneLine (natText n) := oneLine_toDigits n

@[simp] theorem oneLine_zeros (k : Nat) : OneLine (List.replicate k '0') :=
  oneLine_of_digits fun _ => Json.isDigit_of_mem_zeros

@[simp] theorem oneLine_intText (n : Int) : OneLine (intText n) := by
  cases n <;> simp [intText]

theorem oneLine_positionalText (pointed : Bool) (d : Decimal) : OneLine (positionalText pointed d) := by
  have hdigits := oneLine_natText d.digits
  unfold positionalText
  dsimp only
  split_ifs
  · simp
  · simp
  · simp
  · simp [hdigits.sublist (List.take_sublist _ _), hdigits.sublist (List.drop_sublist _ _)]

theorem oneLine_scientificText (d : Decimal) : OneLine (scientificText d) := by
  have hdigits := oneLine_natText d.digits
  unfold scientificText
  dsimp only
  split_ifs <;>
    simp [hdigits.sublist (List.take_sublist _ _), hdigits.sublist (List.tail_sublist _)]

@[simp] theorem oneLine_floatText (l : Layout) (x : Float) : OneLine (floatText l x) := by
  have hsign : OneLine (if (Binary.ofFloat x).negative then ['-'] else []) := by
    split <;> simp
  unfold floatText
  dsimp only
  split_ifs <;> simp [oneLine_positionalText, oneLine_scientificText]

end Number

/-! ## Strings -/

namespace Json

theorem oneLine_hexDigit {n : Nat} (hn : n < 16) : 0x20 ≤ (hexDigit n).toNat := by
  interval_cases n <;> decide

theorem oneLine_escapeChar (c : Char) : OneLine (escapeChar c) := by
  unfold escapeChar
  by_cases hcontrol : c.toNat < 0x20
  · have hhigh := oneLine_hexDigit (show c.toNat / 16 < 16 by omega)
    have hlow := oneLine_hexDigit (show c.toNat % 16 < 16 by omega)
    rw [if_pos hcontrol]
    split_ifs <;> simp [hhigh, hlow]
  · rw [if_neg hcontrol]
    split_ifs <;> simp
    omega

/-- A string stays on its line, whatever is in it. -/
@[simp] theorem oneLine_stringText (s : String) : OneLine (stringText s) := by
  have hchars : OneLine (s.toList.flatMap escapeChar) := by
    intro d hd
    obtain ⟨c, -, hd⟩ := List.mem_flatMap.mp hd
    exact oneLine_escapeChar c d hd
  simpa [stringText] using hchars

/-! ## Documents -/

mutual

/-- A document stays on its line. -/
theorem oneLine_render (level : Nat) (j : Json) : OneLine (render compactSpacing level j) := by
  match j with
  | .null => simp [render]
  | .bool true => simp [render]
  | .bool false => simp [render]
  | .int n => simp [render]
  | .float x =>
    rw [render, floatText]
    split
    · exact Number.oneLine_floatText _ x
    · simp
  | .str t => simp [render]
  | .arr [] => simp [render]
  | .arr (j :: rest) =>
    have hj := oneLine_render (level + 1) j
    have hrest := oneLine_renderItems (level + 1) rest
    simpa [render, compactSpacing] using And.intro hj hrest
  | .obj [] => simp [render]
  | .obj ((name, j) :: rest) =>
    have hj := oneLine_render (level + 1) j
    have hrest := oneLine_renderMembers (level + 1) rest
    simpa [render, compactSpacing] using And.intro hj hrest
  | .unreadable => simp [render]

theorem oneLine_renderItems (level : Nat) (items : List Json) :
    OneLine (renderItems compactSpacing level items) := by
  match items with
  | [] => simp [renderItems]
  | j :: rest =>
    have hj := oneLine_render level j
    have hrest := oneLine_renderItems level rest
    simpa [renderItems, compactSpacing] using And.intro hj hrest

theorem oneLine_renderMembers (level : Nat) (members : List (String × Json)) :
    OneLine (renderMembers compactSpacing level members) := by
  match members with
  | [] => simp [renderMembers]
  | (name, j) :: rest =>
    have hj := oneLine_render level j
    have hrest := oneLine_renderMembers level rest
    simpa [renderMembers, compactSpacing] using And.intro hj hrest

end

@[simp] theorem oneLine_compact (j : Json) : OneLine j.compact.toList := by
  rw [compact, String.toList_ofList]
  exact oneLine_render 0 j

@[simp] theorem compact_str (s : String) : (Json.str s).compact = quote s := by
  rw [compact, render, quote]

@[simp] theorem oneLine_quote (s : String) : OneLine (quote s).toList := by
  rw [← compact_str]
  exact oneLine_compact _

end Json

end DiceScript
