import DiceScript.Proofs.Json.Numbers
import DiceScript.Proofs.Parts

/-!
# Documents read back

What the writer makes of a document is read as that document, on one line or on many: the two layouts
differ in blanks, which the reader passes over. A document loses nothing when its integers fit 64
bits, its floats are finite and all of it denotes something.

- `Writable` — a document that loses nothing.
- `readString_escape` — strings read back.
- `readValue_render` — documents read back, whatever follows.
- `parse?_pretty`, `parse?_compact` — whole texts read back.
-/

namespace DiceScript.Json

/-! ## Strings -/

/-- The piece that a character is read as. Control characters without a short escape are written as
numbers. -/
def pieceOf (c : Char) : Piece :=
  if c = '\x08' ∨ c = '\x0c' ∨ c = '\n' ∨ c = '\r' ∨ c = '\t' ∨ 0x20 ≤ c.toNat then .char c
  else .unit c.toNat

theorem hexValue?_hexDigit {n : Nat} (hn : n < 16) : hexValue? (hexDigit n) = some n := by
  interval_cases n <;> decide

/-- A character is read as its piece. -/
theorem readPieces_escapeChar (found : List Piece) (c : Char) (rest : List Char) :
    readPieces found (escapeChar c ++ rest) = readPieces (pieceOf c :: found) rest := by
  unfold escapeChar
  split_ifs with h1 h2 h3 h4 h5 h6 h7 h8
  · subst h1
    rfl
  · subst h2
    rfl
  · subst h3
    rfl
  · subst h4
    rfl
  · subst h5
    rfl
  · subst h6
    rfl
  · subst h7
    rfl
  · have hnumber : hexValue4? '0' '0' (hexDigit (c.toNat / 16)) (hexDigit (c.toNat % 16)) =
        some c.toNat := by
      have hzero : hexValue? '0' = some 0 := by decide
      unfold hexValue4?
      rw [hzero, hexValue?_hexDigit (by omega), hexValue?_hexDigit (by omega)]
      simp only [Option.some.injEq]
      omega
    have hpiece : pieceOf c = .unit c.toNat := by
      unfold pieceOf
      rw [if_neg]
      simp only [h3, h4, h5, h6, h7, false_or]
      omega
    rw [hpiece]
    simp only [List.cons_append, List.nil_append]
    rw [readPieces, hnumber]
  · have hpiece : pieceOf c = .char c := by
      unfold pieceOf
      rw [if_pos]
      omega
    rw [hpiece, List.singleton_append, readPieces.eq_def]
    split
    · rename_i h
      cases h
    · rename_i h
      exact absurd (List.cons.inj h).1 h1
    · rename_i h
      exact absurd (List.cons.inj h).1 h2
    · rename_i h
      exact absurd (List.cons.inj h).1 h2
    · rename_i h
      obtain ⟨rfl, rfl⟩ := List.cons.inj h
      rw [if_neg]
      simp [h2]
      omega

theorem readPieces_flatMap (found : List Piece) (cs rest : List Char) :
    readPieces found (cs.flatMap escapeChar ++ '"' :: rest) =
      some (found.reverse ++ cs.map pieceOf, rest) := by
  induction cs generalizing found with
  | nil => simp [readPieces]
  | cons c cs ih =>
    rw [List.flatMap_cons, List.append_assoc, readPieces_escapeChar, ih]
    simp

theorem pieceOf_cases (c : Char) :
    pieceOf c = .char c ∨ pieceOf c = .unit c.toNat ∧ c.toNat < 0x20 := by
  unfold pieceOf
  split_ifs with h
  · exact .inl rfl
  · exact .inr ⟨rfl, by omega⟩

/-- The number of a control character is no half of a surrogate pair. -/
theorem joinPieces_control {n : Nat} (hn : n < 0x20) (found : List Char) (rest : List Piece) :
    joinPieces found (.unit n :: rest) = joinPieces (Char.ofNat n :: found) rest := by
  have hhigh : isHighHalf n = false := by
    simp [isHighHalf]
    omega
  have hlow : isLowHalf n = false := by
    simp [isLowHalf]
    omega
  cases rest with
  | nil => simp [joinPieces, hhigh, hlow]
  | cons p rest => cases p <;> simp [joinPieces, hhigh, hlow]

/-- Pieces join to the characters they were made of. -/
theorem joinPieces_map (found cs : List Char) :
    joinPieces found (cs.map pieceOf) = some (found.reverse ++ cs) := by
  induction cs generalizing found with
  | nil => simp [joinPieces]
  | cons c cs ih =>
    rw [List.map_cons]
    rcases pieceOf_cases c with hc | ⟨hc, hn⟩
    · rw [hc, joinPieces, ih]
      simp
    · rw [hc, joinPieces_control hn, Char.ofNat_toNat, ih]
      simp

/-- Strings read back. -/
theorem readString_escape (s : String) (rest : List Char) :
    readString (s.toList.flatMap escapeChar ++ '"' :: rest) = some (some s, rest) := by
  unfold readString
  rw [readPieces_flatMap, Option.map_some, List.reverse_nil, List.nil_append]
  dsimp only
  rw [joinPieces_map]
  simp

/-! ## Blanks -/

/-- A layout with nothing but blanks between tokens, and a colon after a name. -/
structure Spacing.Blank (s : Spacing) : Prop where
  line : ∀ level, ∀ c ∈ s.line level, isGap c = true
  colon : ∃ blanks, s.colon = ':' :: blanks ∧ ∀ c ∈ blanks, isGap c = true

theorem blank_compactSpacing : compactSpacing.Blank :=
  ⟨fun _ c hc => absurd hc (by simp [compactSpacing]), [], rfl, by simp⟩

theorem blank_prettySpacing : prettySpacing.Blank := by
  refine ⟨fun level c hc => ?_, [' '], rfl, by simp [isGap]⟩
  rcases List.mem_cons.mp hc with rfl | hc
  · rfl
  · rw [List.eq_of_mem_replicate hc]
    rfl

theorem skipGap_append {blanks : List Char} (hb : ∀ c ∈ blanks, isGap c = true)
    (text : List Char) : skipGap (blanks ++ text) = skipGap text :=
  List.dropWhile_append_of_pos hb

theorem skipGap_cons {c : Char} (hc : isGap c = false) (text : List Char) :
    skipGap (c :: text) = c :: text := by
  simp [skipGap, hc]

theorem skipGap_skipGap (text : List Char) : skipGap (skipGap text) = skipGap text := by
  induction text with
  | nil => rfl
  | cons c text ih =>
    cases hc : isGap c with
    | true => rwa [show c :: text = [c] ++ text from rfl, skipGap_append (by simpa using hc)]
    | false => rw [skipGap_cons hc, skipGap_cons hc]

/-- Blanks and brackets do not go on as a number would. -/
theorem stops_append {blanks text : List Char} (hb : ∀ c ∈ blanks, isGap c = true)
    (ht : Stops text) : Stops (blanks ++ text) := by
  cases blanks with
  | nil => exact ht
  | cons c blanks =>
    intro d hd
    rw [List.cons_append, List.head?_cons, Option.some.injEq] at hd
    have hgap := hb c (by simp)
    rw [hd] at hgap
    simp only [isGap, Bool.or_eq_true, decide_eq_true_eq] at hgap
    rcases hgap with ((rfl | rfl) | rfl) | rfl <;> decide

/-! ## Documents that lose nothing -/

/-- A document of which the writer loses nothing. -/
def Writable : Json → Prop :=
  All fun
    | .int n => Integral n
    | .float x => x.isFinite
    | .unreadable => False
    | _ => True

/-! ## Blanks between tokens -/

def afterItem (fuel : Nat) (found : List Json) (text : List Char) : Option (Json × List Char) :=
  match skipGap text with
  | ',' :: rest => readItems fuel found rest
  | ']' :: rest => some (.arr found.reverse, rest)
  | _ => none

theorem readItems_succ (fuel : Nat) (found : List Json) (text : List Char) :
    readItems (fuel + 1) found text =
      match readValue fuel text with
      | none => none
      | some (v, rest) => afterItem fuel (v :: found) rest := by
  rw [readItems]
  rfl

def afterMember (fuel : Nat) (found : Option (List (String × Json))) (text : List Char) :
    Option (Json × List Char) :=
  match skipGap text with
  | ',' :: rest => readMembers fuel found rest
  | '\x7d' :: rest => some (ofMembers? found, rest)
  | _ => none

theorem readValue_skipGap (fuel : Nat) (text : List Char) :
    readValue fuel (skipGap text) = readValue fuel text := by
  cases fuel with
  | zero => rfl
  | succ fuel => rw [readValue, readValue, skipGap_skipGap]

theorem readItems_skipGap (fuel : Nat) (found : List Json) (text : List Char) :
    readItems fuel found (skipGap text) = readItems fuel found text := by
  cases fuel with
  | zero => rfl
  | succ fuel => rw [readItems_succ, readItems_succ, readValue_skipGap]

theorem readMembers_skipGap (fuel : Nat) (found : Option (List (String × Json)))
    (text : List Char) : readMembers fuel found (skipGap text) = readMembers fuel found text := by
  cases fuel with
  | zero => rfl
  | succ fuel => rw [readMembers, readMembers, skipGap_skipGap]

/-- A number starts with a minus or a digit. -/
theorem readNumber_head {text : List Char} {r : Json × List Char} (h : readNumber text = some r) :
    ∃ c rest, text = c :: rest ∧ (c = '-' ∨ c.isDigit = true) := by
  have hmagnitude {negative : Bool} {text : List Char} {r : Json × List Char}
      (h : readMagnitude negative text = some r) : ∃ c rest, text = c :: rest ∧ c.isDigit = true := by
    cases text with
    | nil => exact absurd h (by simp [readMagnitude, spanDigits])
    | cons c rest =>
      refine ⟨c, rest, rfl, ?_⟩
      by_contra hc
      simp [readMagnitude, spanDigits, hc] at h
  unfold readNumber at h
  split at h
  · exact ⟨_, _, rfl, .inl rfl⟩
  · obtain ⟨c, rest, rfl, hc⟩ := hmagnitude h
    exact ⟨c, rest, rfl, .inr hc⟩

/-- A number is a document. -/
theorem readValue_of_readNumber {text : List Char} {r : Json × List Char}
    (h : readNumber text = some r) (fuel : Nat) : readValue (fuel + 1) text = some r := by
  obtain ⟨c, rest, rfl, hc⟩ := readNumber_head h
  have hne (d : Char) (hd : ¬ (d = '-' ∨ d.isDigit = true)) : c ≠ d := by
    rintro rfl
    exact hd hc
  have hgap : isGap c = false := by
    simp [isGap, hne ' ' (by decide), hne '\n' (by decide), hne '\t' (by decide),
      hne '\r' (by decide)]
  rw [readValue, skipGap_cons hgap]
  split
  · rename_i heq
    exact absurd (List.cons.inj heq).1 (hne _ (by decide))
  · rename_i heq
    exact absurd (List.cons.inj heq).1 (hne _ (by decide))
  · rename_i heq
    exact absurd (List.cons.inj heq).1 (hne _ (by decide))
  · rename_i heq
    exact absurd (List.cons.inj heq).1 (hne _ (by decide))
  · rename_i heq
    exact absurd (List.cons.inj heq).1 (hne _ (by decide))
  · rename_i heq
    exact absurd (List.cons.inj heq).1 (hne _ (by decide))
  · exact h

/-- A document does not start with a closing bracket. -/
theorem readValue_head {fuel : Nat} {text : List Char} {r : Json × List Char}
    (h : readValue fuel text = some r) (rest : List Char) : skipGap text ≠ ']' :: rest := by
  intro hclose
  cases fuel with
  | zero => exact absurd h (by simp [readValue])
  | succ fuel =>
    rw [readValue, hclose] at h
    exact absurd h (by simp [readNumber, readMagnitude, spanDigits])

/-! ## Tokens -/

theorem readValue_bracket (fuel : Nat) (rest : List Char) :
    readValue (fuel + 1) ('[' :: rest) =
      match skipGap rest with
      | ']' :: rest => some (.arr [], rest)
      | rest => readItems fuel [] rest := by
  rw [readValue, skipGap_cons (by decide)]
  rfl

theorem readValue_brace (fuel : Nat) (rest : List Char) :
    readValue (fuel + 1) ('\x7b' :: rest) =
      match skipGap rest with
      | '\x7d' :: rest => some (.obj [], rest)
      | rest => readMembers fuel (some []) rest := by
  rw [readValue, skipGap_cons (by decide)]
  rfl

theorem readValue_stringText (fuel : Nat) (t : String) (rest : List Char) :
    readValue (fuel + 1) (stringText t ++ rest) = some (.str t, rest) := by
  have hstring := readString_escape t rest
  unfold stringText
  simp only [List.cons_append, List.append_assoc, List.nil_append]
  rw [readValue, skipGap_cons (by decide)]
  show (readString _).map _ = _
  rw [hstring]
  rfl

/-- A member: its name, a colon, its value. -/
theorem readMembers_stringText {fuel : Nat} {j : Json} {blanks text rest : List Char}
    (found : List (String × Json)) (name : String) (hb : ∀ c ∈ blanks, isGap c = true)
    (h : readValue fuel text = some (j, rest)) :
    readMembers (fuel + 1) (some found) (stringText name ++ (':' :: (blanks ++ text))) =
      afterMember fuel (some ((name, j) :: found)) rest := by
  have hstring := readString_escape name (':' :: (blanks ++ text))
  have hvalue : readValue fuel (blanks ++ text) = some (j, rest) := by
    rw [← readValue_skipGap, skipGap_append hb, readValue_skipGap, h]
  unfold stringText
  simp only [List.cons_append, List.append_assoc, List.nil_append]
  rw [readMembers, skipGap_cons (by decide)]
  simp only [hstring]
  rw [skipGap_cons (by decide)]
  simp only [hvalue]
  rfl

/-- A token that reads back as a number is a document. -/
theorem readValue_number {j : Json} {text : List Char}
    (h : ∀ tail, Stops tail → readNumber (text ++ tail) = some (j, tail)) {tail : List Char}
    (htail : Stops tail) {fuel : Nat} (hfuel : 2 * text.length ≤ fuel) :
    readValue fuel (text ++ tail) = some (j, tail) := by
  have hpos : 0 < text.length := by
    obtain ⟨c, rest, hcons, -⟩ := readNumber_head (h [] (fun c hc => absurd hc (by simp)))
    rw [List.append_nil] at hcons
    rw [hcons]
    exact Nat.succ_pos _
  obtain ⟨fuel, rfl⟩ : ∃ f, fuel = f + 1 := ⟨fuel - 1, by omega⟩
  exact readValue_of_readNumber (h tail htail) fuel

/-! ## Reading what was written -/

theorem stops_cons {c : Char} {text : List Char}
    (hc : c.isDigit = false ∧ c ≠ '.' ∧ c ≠ 'e' ∧ c ≠ 'E') : Stops (c :: text) := by
  intro d hd
  rw [List.head?_cons, Option.some.injEq] at hd
  rwa [← hd]

section Render

variable {s : Spacing} (hs : s.Blank)

include hs

theorem stops_renderItems (level : Nat) (items : List Json) (tail : List Char) :
    Stops (renderItems s (level + 1) items ++ (s.line level ++ ']' :: tail)) := by
  cases items with
  | nil =>
    rw [renderItems, List.nil_append]
    exact stops_append (hs.line level) (stops_cons (by decide))
  | cons j rest =>
    rw [renderItems]
    exact stops_cons (by decide)

theorem stops_renderMembers (level : Nat) (members : List (String × Json)) (tail : List Char) :
    Stops (renderMembers s (level + 1) members ++ (s.line level ++ '\x7d' :: tail)) := by
  cases members with
  | nil =>
    rw [renderMembers, List.nil_append]
    exact stops_append (hs.line level) (stops_cons (by decide))
  | cons j rest =>
    obtain ⟨name, j⟩ := j
    rw [renderMembers]
    exact stops_cons (by decide)

mutual

/-- **Documents read back**, whatever the layout and whatever follows. The fuel that the text is given
is enough: every step into an array or an object passes over at least its bracket, a comma or a
quote. -/
theorem readValue_render (level : Nat) (j : Json) (hj : j.Writable) {fuel : Nat}
    {tail : List Char} (htail : Stops tail) (hfuel : 2 * (render s level j).length ≤ fuel) :
    readValue fuel (render s level j ++ tail) = some (j, tail) := by
  match j with
  | .null =>
    obtain ⟨fuel, rfl⟩ : ∃ f, fuel = f + 1 := ⟨fuel - 1, by simp [render] at hfuel; omega⟩
    rfl
  | .bool true =>
    obtain ⟨fuel, rfl⟩ : ∃ f, fuel = f + 1 := ⟨fuel - 1, by simp [render] at hfuel; omega⟩
    rfl
  | .bool false =>
    obtain ⟨fuel, rfl⟩ : ∃ f, fuel = f + 1 := ⟨fuel - 1, by simp [render] at hfuel; omega⟩
    rfl
  | .int n =>
    rw [render] at hfuel ⊢
    exact readValue_number (fun _ => readNumber_intText hj.self) htail hfuel
  | .float x =>
    rw [render] at hfuel ⊢
    exact readValue_number (fun _ => readNumber_floatText hj.self) htail hfuel
  | .str t =>
    obtain ⟨fuel, rfl⟩ : ∃ f, fuel = f + 1 :=
      ⟨fuel - 1, by simp [render, stringText] at hfuel; omega⟩
    rw [render]
    exact readValue_stringText fuel t tail
  | .arr [] =>
    obtain ⟨fuel, rfl⟩ : ∃ f, fuel = f + 1 := ⟨fuel - 1, by simp [render] at hfuel; omega⟩
    rfl
  | .arr (j :: rest) =>
    obtain ⟨hj, hrest⟩ := List.forall_mem_cons.mp hj.parts
    have hlength : (render s level (.arr (j :: rest))).length =
        2 + (s.line (level + 1)).length + (render s (level + 1) j).length +
          (renderItems s (level + 1) rest).length + (s.line level).length := by
      simp [render]
      omega
    obtain ⟨fuel, rfl⟩ : ∃ f, fuel = f + 2 := ⟨fuel - 2, by omega⟩
    have hitem := readValue_render (level + 1) j hj (stops_renderItems hs level rest tail)
      (show _ ≤ fuel by omega)
    have hitems : readItems (fuel + 1) [] (render s (level + 1) j ++
        (renderItems s (level + 1) rest ++ (s.line level ++ ']' :: tail))) =
        some (.arr (j :: rest), tail) := by
      rw [readItems_succ, hitem]
      exact afterItem_renderItems level rest hrest [j] tail (by omega)
    rw [render]
    simp only [List.cons_append, List.append_assoc, List.nil_append]
    rw [readValue_bracket, skipGap_append (hs.line (level + 1))]
    split
    · rename_i heq
      exact absurd heq (readValue_head hitem _)
    · rwa [readItems_skipGap]
  | .obj [] =>
    obtain ⟨fuel, rfl⟩ : ∃ f, fuel = f + 1 := ⟨fuel - 1, by simp [render] at hfuel; omega⟩
    rfl
  | .obj ((name, j) :: rest) =>
    obtain ⟨hj, hrest⟩ := List.forall_mem_cons.mp hj.parts
    obtain ⟨blanks, hcolon, hblanks⟩ := hs.colon
    have hlength : 2 + (render s (level + 1) j).length +
        (renderMembers s (level + 1) rest).length ≤
        (render s level (.obj ((name, j) :: rest))).length := by
      simp [render]
      omega
    obtain ⟨fuel, rfl⟩ : ∃ f, fuel = f + 2 := ⟨fuel - 2, by omega⟩
    have hvalue := readValue_render (level + 1) j hj (stops_renderMembers hs level rest tail)
      (show _ ≤ fuel by omega)
    have hmembers := (readMembers_stringText [] name hblanks hvalue).trans
      (afterMember_renderMembers level rest hrest _ tail (by omega))
    rw [render, hcolon]
    simp only [List.cons_append, List.append_assoc, List.nil_append]
    rw [readValue_brace, skipGap_append (hs.line (level + 1)), stringText, List.cons_append,
      List.cons_append, skipGap_cons (by decide)]
    exact hmembers
  | .unreadable => exact absurd hj.self id

theorem afterItem_renderItems (level : Nat) (items : List Json) (hitems : ∀ j ∈ items, j.Writable)
    {fuel : Nat} (found : List Json) (tail : List Char)
    (hfuel : 2 * (renderItems s (level + 1) items).length ≤ fuel) :
    afterItem fuel found (renderItems s (level + 1) items ++ (s.line level ++ ']' :: tail)) =
      some (.arr (found.reverse ++ items), tail) := by
  match items with
  | [] =>
    rw [renderItems, List.nil_append, afterItem, skipGap_append (hs.line level),
      skipGap_cons (by decide), List.append_nil]
    rfl
  | j :: rest =>
    obtain ⟨hj, hrest⟩ := List.forall_mem_cons.mp hitems
    have hlength : (renderItems s (level + 1) (j :: rest)).length =
        1 + (s.line (level + 1)).length + (render s (level + 1) j).length +
          (renderItems s (level + 1) rest).length := by
      simp [renderItems]
      omega
    obtain ⟨fuel, rfl⟩ : ∃ f, fuel = f + 1 := ⟨fuel - 1, by omega⟩
    have hitem := readValue_render (level + 1) j hj (stops_renderItems hs level rest tail)
      (show _ ≤ fuel by omega)
    have hafter := afterItem_renderItems level rest hrest (j :: found) tail
      (show _ ≤ fuel by omega)
    rw [renderItems, afterItem]
    simp only [List.cons_append, List.append_assoc]
    rw [skipGap_cons (by decide)]
    show readItems (fuel + 1) found (s.line (level + 1) ++ _) = _
    rw [← readItems_skipGap, skipGap_append (hs.line (level + 1)), readItems_skipGap,
      readItems_succ, hitem]
    simpa using hafter

theorem afterMember_renderMembers (level : Nat) (members : List (String × Json))
    (hmembers : ∀ j ∈ members.map (·.2), j.Writable) {fuel : Nat} (found : List (String × Json))
    (tail : List Char) (hfuel : 2 * (renderMembers s (level + 1) members).length ≤ fuel) :
    afterMember fuel (some found)
        (renderMembers s (level + 1) members ++ (s.line level ++ '\x7d' :: tail)) =
      some (.obj (found.reverse ++ members), tail) := by
  match members with
  | [] =>
    rw [renderMembers, List.nil_append, afterMember, skipGap_append (hs.line level),
      skipGap_cons (by decide), List.append_nil]
    rfl
  | (name, j) :: rest =>
    obtain ⟨hj, hrest⟩ := List.forall_mem_cons.mp hmembers
    obtain ⟨blanks, hcolon, hblanks⟩ := hs.colon
    have hlength : 1 + (render s (level + 1) j).length +
        (renderMembers s (level + 1) rest).length ≤
        (renderMembers s (level + 1) ((name, j) :: rest)).length := by
      simp [renderMembers]
      omega
    obtain ⟨fuel, rfl⟩ : ∃ f, fuel = f + 1 := ⟨fuel - 1, by omega⟩
    have hvalue := readValue_render (level + 1) j hj (stops_renderMembers hs level rest tail)
      (show _ ≤ fuel by omega)
    have hafter := afterMember_renderMembers level rest hrest ((name, j) :: found) tail
      (show _ ≤ fuel by omega)
    rw [renderMembers, hcolon, afterMember]
    simp only [List.cons_append, List.append_assoc]
    rw [skipGap_cons (by decide)]
    show readMembers (fuel + 1) (some found) (s.line (level + 1) ++ _) = _
    rw [← readMembers_skipGap, skipGap_append (hs.line (level + 1)), readMembers_skipGap,
      readMembers_stringText found name hblanks hvalue]
    simpa using hafter

end

/-- A text with one document in it and nothing after it. -/
theorem parse?_render {j : Json} (hj : j.Writable) :
    parse? (String.ofList (render s 0 j)) = some j := by
  have hread := readValue_render hs 0 j hj (fun c hc => absurd hc (by simp) : Stops [])
    (show 2 * (render s 0 j).length ≤ fuelFor (render s 0 j) by unfold fuelFor; omega)
  rw [List.append_nil] at hread
  unfold parse?
  rw [String.toList_ofList]
  dsimp only
  rw [hread]
  rfl

end Render

theorem parse?_pretty {j : Json} (hj : j.Writable) : parse? j.pretty = some j :=
  parse?_render blank_prettySpacing hj

theorem parse?_compact {j : Json} (hj : j.Writable) : parse? j.compact = some j :=
  parse?_render blank_compactSpacing hj

end DiceScript.Json
