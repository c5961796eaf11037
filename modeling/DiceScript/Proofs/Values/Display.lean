import DiceScript.Proofs.Values.Finite
import DiceScript.Value.Display
import Mathlib.Data.List.Basic

/-!
# Lists are told by their texts

Every part of the text of a list says itself where it ends: an escape by the character after its
backslash or by its closing brace, a string by the first quote that is in no escape, a number by the
comma or bracket behind it, a list by its bracket. So if two texts begin with the same list, whatever
follows it, then neither the items nor what follows can differ. This does not hold of floats and
functions, which are left out: a float shows as another one or as an integer would, a function as its
name and parameters only.

- `Text.quoteChar_append_inj`, `Text.quoted_append_inj` — quoted text.
- `Value.Plain` — values without floats and functions.
- `Value.itemText_append_inj` — items of lists, at any depth.
- `list_display_inj` — hence lists.
-/

namespace DiceScript

/-! ## Quoted text -/

namespace Text

/-! ### Code points in braces -/

theorem digitChar_inj {m n : Nat} (hm : m < 16) (hn : n < 16) (h : m.digitChar = n.digitChar) :
    m = n := by
  interval_cases m <;> interval_cases n <;> first | rfl | exact absurd h (by decide)

theorem hexDigits_eq_if (n : Nat) :
    hexDigits n = if n < 16 then [n.digitChar] else hexDigits (n / 16) ++ [(n % 16).digitChar] :=
  Nat.toDigits_eq_if (by decide)

theorem hexDigits_ne_nil (n : Nat) : hexDigits n ≠ [] := Nat.toDigits_ne_nil

/-- The last digit is that of the remainder, and the digits before it are those of the quotient. -/
theorem hexDigits_inj {m n : Nat} (h : hexDigits m = hexDigits n) : m = n := by
  induction m using Nat.strongRecOn generalizing n with
  | ind m ih =>
    rw [hexDigits_eq_if m, hexDigits_eq_if n] at h
    split at h <;> split at h
    · exact digitChar_inj (by assumption) (by assumption) (List.singleton_inj.mp h)
    · have hfront := congrArg List.dropLast h
      simp only [List.dropLast_singleton, List.dropLast_concat] at hfront
      exact absurd hfront.symm (hexDigits_ne_nil _)
    · have hfront := congrArg List.dropLast h
      simp only [List.dropLast_singleton, List.dropLast_concat] at hfront
      exact absurd hfront (hexDigits_ne_nil _)
    · obtain ⟨hfront, hlast⟩ := List.append_inj' h rfl
      have hquotient := ih (m / 16) (by omega) hfront
      have hrest := digitChar_inj (Nat.mod_lt m (by decide)) (Nat.mod_lt n (by decide))
        (List.singleton_inj.mp hlast)
      omega

theorem brace_notMem_hexDigits (n : Nat) : '\x7d' ∉ hexDigits n := by
  have hdigit : ∀ d < 16, '\x7d' ≠ d.digitChar := by decide
  induction n using Nat.strongRecOn with
  | ind n ih =>
    rw [hexDigits_eq_if]
    split
    · rename_i hn
      rw [List.mem_singleton]
      exact hdigit n hn
    · have hquotient := ih (n / 16) (by omega)
      have hrest := hdigit (n % 16) (Nat.mod_lt n (by decide))
      simp [hquotient, hrest]

/-- Two texts without a mark, each followed by the mark, end where the first mark is. -/
theorem eq_of_append_cons {mark : Char} {a b r s : List Char} (ha : mark ∉ a) (hb : mark ∉ b)
    (h : a ++ mark :: r = b ++ mark :: s) : a = b ∧ r = s := by
  rcases List.append_eq_append_iff.mp h with ⟨more, rfl, hmore⟩ | ⟨more, rfl, hmore⟩
  · cases more with
    | nil => exact ⟨(List.append_nil a).symm, (List.cons.inj hmore).2⟩
    | cons c cs =>
      obtain ⟨rfl, -⟩ := List.cons.inj hmore
      exact absurd (by simp) hb
  · cases more with
    | nil => exact ⟨List.append_nil b, (List.cons.inj hmore).2.symm⟩
    | cons c cs =>
      obtain ⟨rfl, -⟩ := List.cons.inj hmore
      exact absurd (by simp) ha

/-! ### Characters -/

def shortEscapes : List (Char × Char) :=
  [('"', '"'), ('\\', '\\'), ('\n', 'n'), ('\r', 'r'), ('\t', 't'), ('\x00', '0')]

/-- A character is written with a short escape, with its code point in braces, or as it is. -/
theorem quoteChar_cases (c : Char) :
    (∃ letter, (c, letter) ∈ shortEscapes ∧ quoteChar c = ['\\', letter]) ∨
      quoteChar c = '\\' :: 'u' :: '\x7b' :: (hexDigits c.toNat ++ ['\x7d']) ∨
      c ≠ '"' ∧ c ≠ '\\' ∧ quoteChar c = [c] := by
  unfold quoteChar
  split_ifs with hquote hback hline hreturn htab hnul hescaped
  · exact .inl ⟨'"', by simp [shortEscapes, hquote], rfl⟩
  · exact .inl ⟨'\\', by simp [shortEscapes, hback], rfl⟩
  · exact .inl ⟨'n', by simp [shortEscapes, hline], rfl⟩
  · exact .inl ⟨'r', by simp [shortEscapes, hreturn], rfl⟩
  · exact .inl ⟨'t', by simp [shortEscapes, htab], rfl⟩
  · exact .inl ⟨'0', by simp [shortEscapes, hnul], rfl⟩
  · exact .inr (.inl rfl)
  · exact .inr (.inr ⟨hquote, hback, rfl⟩)

/-- The letter of a short escape tells its character. -/
theorem eq_of_mem_shortEscapes {c d letter : Char} (hc : (c, letter) ∈ shortEscapes)
    (hd : (d, letter) ∈ shortEscapes) : c = d := by
  simp only [shortEscapes, List.mem_cons, Prod.mk.injEq, List.not_mem_nil, or_false] at hc hd
  grind

theorem ne_u_of_mem_shortEscapes {c letter : Char} (h : (c, letter) ∈ shortEscapes) :
    letter ≠ 'u' := by
  simp only [shortEscapes, List.mem_cons, Prod.mk.injEq, List.not_mem_nil, or_false] at h
  grind

/-- No escape and no plain character starts with a quote. -/
theorem quoteChar_head (c : Char) : ∃ d rest, quoteChar c = d :: rest ∧ d ≠ '"' := by
  rcases quoteChar_cases c with ⟨letter, -, hc⟩ | hc | ⟨hquote, -, hc⟩
  · exact ⟨'\\', [letter], hc, by decide⟩
  · exact ⟨'\\', _, hc, by decide⟩
  · exact ⟨c, [], hc, hquote⟩

/-- What a character is written as tells it from what follows. -/
theorem quoteChar_append_inj {c d : Char} {r s : List Char}
    (h : quoteChar c ++ r = quoteChar d ++ s) : c = d ∧ r = s := by
  rcases quoteChar_cases c with ⟨a, ha, hc⟩ | hc | ⟨-, hback, hc⟩ <;>
    rcases quoteChar_cases d with ⟨b, hb, hd⟩ | hd | ⟨-, hback', hd⟩ <;>
    simp only [hc, hd, List.cons_append, List.nil_append, List.append_assoc, List.cons.injEq,
      true_and] at h
  · obtain ⟨rfl, rfl⟩ := h
    exact ⟨eq_of_mem_shortEscapes ha hb, rfl⟩
  · exact absurd h.1 (ne_u_of_mem_shortEscapes ha)
  · exact absurd h.1.symm hback'
  · exact absurd h.1.symm (ne_u_of_mem_shortEscapes hb)
  · obtain ⟨hdigits, rfl⟩ := eq_of_append_cons (brace_notMem_hexDigits _)
      (brace_notMem_hexDigits _) h
    exact ⟨Char.toNat_inj.mp (hexDigits_inj hdigits), rfl⟩
  · exact absurd h.1.symm hback'
  · exact absurd h.1 hback
  · exact absurd h.1 hback
  · exact h

/-- A quoted text tells what follows it: the quote that ends it is the first one in no escape. -/
theorem quoted_append_inj {a b : String} {r s : List Char} (h : quoted a ++ r = quoted b ++ s) :
    a = b ∧ r = s := by
  have hchars : ∀ {as bs : List Char}, as.flatMap quoteChar ++ '"' :: r =
      bs.flatMap quoteChar ++ '"' :: s → as = bs ∧ r = s := by
    intro as
    induction as with
    | nil =>
      intro bs h
      cases bs with
      | nil => exact ⟨rfl, (List.cons.inj h).2⟩
      | cons b bs =>
        obtain ⟨d, rest, hd, hquote⟩ := quoteChar_head b
        simp [hd, Ne.symm hquote] at h
    | cons a as ih =>
      intro bs h
      cases bs with
      | nil =>
        obtain ⟨d, rest, hd, hquote⟩ := quoteChar_head a
        simp [hd, hquote] at h
      | cons b bs =>
        simp only [List.flatMap_cons, List.append_assoc] at h
        obtain ⟨rfl, htail⟩ := quoteChar_append_inj h
        obtain ⟨rfl, hrest⟩ := ih htail
        exact ⟨rfl, hrest⟩
  simp only [quoted, List.cons_append, List.append_assoc, List.nil_append, List.cons.injEq,
    true_and] at h
  obtain ⟨htext, hrest⟩ := hchars h
  exact ⟨String.toList_inj.mp htext, hrest⟩

end Text

/-! ## Items -/

namespace Value

/-- Values without floats and functions: integers, strings, booleans, `undefined` and lists of such
values. -/
def Plain (v : Value) : Prop :=
  v.All fun
    | .float _ => False
    | .function _ => False
    | _ => True

@[simp] theorem plain_list {items : List Value} : (list items).Plain ↔ ∀ v ∈ items, v.Plain := by
  simp [Plain]

theorem not_plain_float (x : Float) : ¬ (float x).Plain := by simp [Plain]

theorem not_plain_function (f : Function) : ¬ (function f).Plain := by simp [Plain]

@[simp] theorem itemText_integer (n : Int64) : (integer n).itemText = Number.intText n.toInt := rfl

@[simp] theorem itemText_string (s : String) : (string s).itemText = Text.quoted s := rfl

@[simp] theorem itemText_true : (boolean true).itemText = ['t', 'r', 'u', 'e'] := rfl

@[simp] theorem itemText_false : (boolean false).itemText = ['f', 'a', 'l', 's', 'e'] := rfl

@[simp] theorem itemText_nil : (list []).itemText = ['[', ']'] := rfl

@[simp] theorem itemText_cons (v : Value) (rest : List Value) :
    (list (v :: rest)).itemText = '[' :: v.itemText ++ furtherText rest := rfl

@[simp] theorem itemText_undefined :
    undefined.itemText = ['u', 'n', 'd', 'e', 'f', 'i', 'n', 'e', 'd'] := rfl

@[simp] theorem furtherText_nil : furtherText [] = [']'] := rfl

@[simp] theorem furtherText_cons (v : Value) (rest : List Value) :
    furtherText (v :: rest) = ',' :: ' ' :: v.itemText ++ furtherText rest := rfl

def typeLed (c : Char) : ValueType :=
  if c = '"' then .string
  else if c = '[' then .list
  else if c = 't' ∨ c = 'f' then .boolean
  else if c = 'u' then .undefined
  else .integer

theorem exists_head_intText (n : Int) :
    ∃ c cs, Number.intText n = c :: cs ∧ (c = '-' ∨ c.isDigit = true) := by
  cases n with
  | ofNat n =>
    cases htext : Number.natText n with
    | nil => exact absurd htext Nat.toDigits_ne_nil
    | cons c cs => exact ⟨c, cs, htext, .inr (Json.isDigit_of_mem_natText (n := n) (by simp [htext]))⟩
  | negSucc n => exact ⟨'-', _, rfl, .inl rfl⟩

/-- The first character of a text tells the type, and that the list does not end there. -/
theorem exists_head_itemText {v : Value} (h : v.Plain) :
    ∃ c cs, v.itemText = c :: cs ∧ typeLed c = v.type ∧ c ≠ ']' := by
  cases v with
  | integer n =>
    obtain ⟨c, cs, htext, hc⟩ := exists_head_intText n.toInt
    have hother : ∀ d ∈ ['"', '[', 't', 'f', 'u', ']'], c ≠ d := by
      rintro d hd rfl
      fin_cases hd <;> exact absurd hc (by decide)
    simp only [List.forall_mem_cons] at hother
    obtain ⟨hquote, hopen, ht, hf, hu, hclose, -⟩ := hother
    exact ⟨c, cs, htext, by simp [typeLed, type, *], hclose⟩
  | float x => exact absurd h (not_plain_float x)
  | string s => exact ⟨'"', _, rfl, rfl, by decide⟩
  | boolean b => cases b <;> exact ⟨_, _, rfl, rfl, by decide⟩
  | list items => cases items <;> exact ⟨'[', _, rfl, rfl, by decide⟩
  | function f => exact absurd h (not_plain_function f)
  | undefined => exact ⟨_, _, rfl, rfl, by decide⟩

/-- Texts that begin with plain values of different types differ in their first characters. -/
theorem type_eq_of_itemText {v w : Value} (hv : v.Plain) (hw : w.Plain) {r s : List Char}
    (h : v.itemText ++ r = w.itemText ++ s) : v.type = w.type := by
  obtain ⟨c, cs, hc, htype, -⟩ := exists_head_itemText hv
  obtain ⟨d, ds, hd, htype', -⟩ := exists_head_itemText hw
  rw [hc, hd] at h
  rw [← htype, ← htype', (List.cons.inj h).1]

/-- No item begins as the end of a list. -/
theorem itemText_append_ne {v : Value} (hv : v.Plain) (r s : List Char) :
    v.itemText ++ r ≠ ']' :: s := by
  obtain ⟨c, cs, hc, -, hclose⟩ := exists_head_itemText hv
  rw [hc]
  exact fun h => hclose (List.cons.inj h).1

/-- What follows an item in a list does not go on as a number would. -/
theorem stops_furtherText (items : List Value) (r : List Char) :
    Json.Stops (furtherText items ++ r) := by
  intro c hc
  cases items with
  | nil =>
    obtain rfl : ']' = c := by simpa using hc
    decide
  | cons v rest =>
    obtain rfl : ',' = c := by simpa using hc
    decide

theorem integer_append_inj {m n : Int64} {r s : List Char} (hr : Json.Stops r) (hs : Json.Stops s)
    (h : Number.intText m.toInt ++ r = Number.intText n.toInt ++ s) : m = n ∧ r = s := by
  have hread := Json.readNumber_intText (Json.integral_toInt m) hr
  rw [h, Json.readNumber_intText (Json.integral_toInt n) hs, Option.some.injEq, Prod.mk.injEq,
    Json.int.injEq] at hread
  exact ⟨(Int64.toInt_inj.mp hread.1).symm, hread.2.symm⟩

mutual

/-- Two texts that begin with an item, and do not go on as a number after it, are the same only if
the items are and what follows them is. -/
theorem itemText_append_inj (v w : Value) (hv : v.Plain) (hw : w.Plain) {r s : List Char}
    (hr : Json.Stops r) (hs : Json.Stops s) (h : v.itemText ++ r = w.itemText ++ s) :
    v = w ∧ r = s := by
  have htype := type_eq_of_itemText hv hw h
  match v, w with
  | .integer m, .integer n =>
    obtain ⟨rfl, hrest⟩ := integer_append_inj hr hs h
    exact ⟨rfl, hrest⟩
  | .string a, .string b =>
    obtain ⟨rfl, hrest⟩ := Text.quoted_append_inj h
    exact ⟨rfl, hrest⟩
  | .boolean a, .boolean b => cases a <;> cases b <;> simp_all
  | .list [], .list [] => exact ⟨rfl, by simpa using h⟩
  | .list [], .list (w :: ws) =>
    simp only [itemText_nil, itemText_cons, List.cons_append, List.nil_append, List.append_assoc,
      List.cons.injEq, true_and] at h
    exact absurd h.symm (itemText_append_ne (plain_list.mp hw w (by simp)) _ _)
  | .list (v :: vs), .list [] =>
    simp only [itemText_nil, itemText_cons, List.cons_append, List.nil_append, List.append_assoc,
      List.cons.injEq, true_and] at h
    exact absurd h (itemText_append_ne (plain_list.mp hv v (by simp)) _ _)
  | .list (v :: vs), .list (w :: ws) =>
    obtain ⟨hfirst, hvs⟩ := List.forall_mem_cons.mp (plain_list.mp hv)
    obtain ⟨hfirst', hws⟩ := List.forall_mem_cons.mp (plain_list.mp hw)
    simp only [itemText_cons, List.cons_append, List.append_assoc, List.cons.injEq, true_and] at h
    obtain ⟨rfl, hmore⟩ := itemText_append_inj v w hfirst hfirst' (stops_furtherText vs r)
      (stops_furtherText ws s) h
    obtain ⟨rfl, hrest⟩ := furtherText_append_inj vs ws hvs hws hmore
    exact ⟨rfl, hrest⟩
  | .undefined, .undefined => exact ⟨rfl, by simpa using h⟩
  | .float x, _ => exact absurd hv (not_plain_float x)
  | .function f, _ => exact absurd hv (not_plain_function f)

/-- Two lists that go on in the same way up to their ends have the same items. -/
theorem furtherText_append_inj (vs ws : List Value) (hvs : ∀ v ∈ vs, v.Plain)
    (hws : ∀ w ∈ ws, w.Plain) {r s : List Char}
    (h : furtherText vs ++ r = furtherText ws ++ s) : vs = ws ∧ r = s := by
  match vs, ws with
  | [], [] => exact ⟨rfl, by simpa using h⟩
  | [], w :: ws => simp at h
  | v :: vs, [] => simp at h
  | v :: vs, w :: ws =>
    obtain ⟨hfirst, hmore⟩ := List.forall_mem_cons.mp hvs
    obtain ⟨hfirst', hmore'⟩ := List.forall_mem_cons.mp hws
    simp only [furtherText_cons, List.cons_append, List.append_assoc, List.cons.injEq,
      true_and] at h
    obtain ⟨rfl, htexts⟩ := itemText_append_inj v w hfirst hfirst' (stops_furtherText vs r)
      (stops_furtherText ws s) h
    obtain ⟨rfl, hrest⟩ := furtherText_append_inj vs ws hmore hmore' htexts
    exact ⟨rfl, hrest⟩

end

/-- The texts of two lists of plain values are the same only if the lists are. -/
theorem list_display_inj {a b : List Value} (ha : ∀ v ∈ a, v.Plain) (hb : ∀ v ∈ b, v.Plain) :
    (list a).display = (list b).display ↔ a = b := by
  constructor
  · intro h
    have htext : (list a).itemText ++ [] = (list b).itemText ++ [] :=
      congrArg (· ++ []) (String.ofList_injective h)
    have hstops : Json.Stops [] := by simp [Json.Stops]
    obtain ⟨hlists, -⟩ := itemText_append_inj (list a) (list b) (plain_list.mpr ha)
      (plain_list.mpr hb) hstops hstops htext
    exact list.inj hlists
  · rintro rfl
    rfl

/-- A string that looks like two strings and what stands between them shows otherwise than they do,
and so does a nested list. -/
theorem list_display_inj_lookalikes :
    (list [string "x\", \"y"]).display ≠ (list [string "x", string "y"]).display ∧
      (list [list [integer 1], integer 2]).display ≠ (list [integer 1, list [integer 2]]).display := by
  constructor
  · rw [Ne, list_display_inj (by simp [Plain]) (by simp [Plain])]
    simp
  · rw [Ne, list_display_inj (by simp [Plain]) (by simp [Plain])]
    simp

end Value

end DiceScript
